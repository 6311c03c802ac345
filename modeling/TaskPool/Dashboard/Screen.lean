import TaskPool.Dashboard.Board
import TaskPool.Dashboard.Panel
import TaskPool.Number.Fixed
import TaskPool.Number.Overflow

/-!
# The screen of the dashboard

From top to bottom: a bar with the tabs, the panels of the tab that is chosen, and a line that
tells the keys or the error.  There is a margin of one cell around it all.

* `Color.ofStatus`   the colour in which the status of a worker is shown
* `Board.screen`     the rows of the screen
-/

namespace TaskPool

inductive Color where
  | green
  | yellow
  | red
  | gray
  deriving DecidableEq

namespace Color

def name : Color → String
  | green => "Green"
  | yellow => "Yellow"
  | red => "Red"
  | gray => "Gray"

def ofStatus (status : String) : Color :=
  if status = WorkerStatus.idle.name then green
  else if status = WorkerStatus.busy.name then yellow
  else if status = WorkerStatus.crashed.name then red
  else gray

end Color

namespace Board

/-- the tasks that the queue shows -/
def queueRows : Nat := 10

def workerItem (w : WorkerSnapshot) : List String :=
  let task :=
    match w.task with
    | some id => "Task: " ++ id.text
    | none => "No current task"
  let usage :=
    match w.cpu, w.memory with
    | some cpu, some memory =>
      "CPU: " ++ Fixed.text 1 cpu ++ "% | Mem: " ++ toString (memory / 1024) ++ " KiB"
    | _, _ => "No metrics yet"
  ["Worker " ++ toString w.id ++ " " ++ w.status.name, task,
    "Done: " ++ toString w.processed ++ " | Failed: " ++ toString w.failed, usage]

/-- the attempt is the one after the retries -/
def runningLine (t : TaskSnapshot) : Overflowing String :=
  (Overflowing.succ t.retries).map fun attempt =>
    let worker := (t.worker.map toString).getD "-"
    "worker " ++ worker ++ ": " ++ t.kind.name ++ " (attempt " ++ toString attempt ++ ")"

def queuedLine (t : TaskSnapshot) : String :=
  t.id.text ++ " Type: " ++ t.kind.name ++ " | Priority: " ++ t.priority.name.capitalize ++
    " | Retries: " ++ toString t.retries ++ "/" ++ toString t.maxRetries

def countLine (name : String) (count : Nat) : String := name ++ ": " ++ toString count

/-! ## panels -/

def overviewPanels (b : Board) : Overflowing (List (Nat × Panel)) :=
  (Overflowing.all (b.running.map runningLine)).map fun running =>
    [(50, ⟨"Workers (" ++ toString b.snapshot.workers.length ++ ")",
        b.snapshot.workers.map workerItem⟩),
      (50, .ofLines "Active Tasks" (if running.isEmpty then ["No active tasks"] else running))]

def queuePanels (b : Board) : List (Nat × Panel) :=
  let title :=
    "Next " ++ toString queueRows ++ " Tasks in Queue (Queued: " ++
      toString b.snapshot.stats.queuedTasks ++ ")"
  [(100, .ofLines title ((b.queued.take queueRows).map queuedLine))]

def statsPanels (b : Board) : List (Nat × Panel) :=
  let s := b.snapshot.stats
  [(34, .ofLines "Pool"
      ["Running: " ++ toString s.running, countLine "Workers" s.workerCount,
        countLine "Idle" s.idleWorkers, countLine "Busy" s.busyWorkers,
        countLine "Queued" s.queuedTasks, countLine "Active tasks" s.activeTasks]),
    (33, .ofLines "By Type" (s.tasksByKind.map fun c => countLine c.1.name c.2)),
    (33, .ofLines "By Status" (s.tasksByStatus.map fun c => countLine c.1.name.capitalize c.2))]

/-- the panels of the tab that is chosen, with their shares of the width in percent -/
def panels (b : Board) : Overflowing (List (Nat × Panel)) :=
  match b.tab with
  | .overview => b.overviewPanels
  | .queue => .exact b.queuePanels
  | .stats => .exact b.statsPanels

/-! ## the whole -/

def tabBar : Panel :=
  .ofLines "Bridge Worker Pool" [" " ++ String.intercalate " │ " (Tab.all.map Tab.title) ++ " "]

/-- of an error the first line is shown -/
def footer (b : Board) : Panel :=
  .ofLines ""
    [match b.error with
    | some why => "API unreachable: " ++ (why.splitOn "\n").headD ""
    | none => "←/→: Switch Tabs | q: Quit"]

/-- the height of the bar and of the footer, with their frames -/
def barHeight : Nat := 3

def body (panels : List (Nat × Panel)) (width height : Nat) : List Row :=
  let widths := Panel.shares width 0 (panels.map Prod.fst)
  Panel.beside (List.zipWith (fun w p => p.2.rows w height) widths panels)

def screen (b : Board) (width height : Nat) : Overflowing (List Row) :=
  b.panels.map fun panels =>
    let inner := width - 2
    let content :=
      tabBar.rows inner barHeight ++ body panels inner (height - 2 - 2 * barHeight) ++
        b.footer.rows inner barHeight
    Row.blank width :: content.map (fun r => [" "] ++ r ++ [" "]) ++ [Row.blank width]

end Board

end TaskPool
