/-!
# Task kinds and sets of kinds

* `Kind`            the eight kinds of work a pool takes; `Kind.all` lists them in their order
* `Kind.name`       the hyphenated name that requests and answers use, `Kind.ofName?` its inverse
* `Kind.sorted`     a list of kinds in increasing order, `Kind.distinct` without its repetitions
* `KindSet`         a set of kinds, held as a list of its members
* `KindSet.toList`  the members in increasing order

Why a `KindSet` is a set: `KindSet.ofList` filters `Kind.all` by membership, so the order and the
repetitions of the list it is built from leave no trace (`KindSet.ofList_congr`), and two sets
with the same members are equal.
-/

namespace TaskPool

inductive Kind where
  | depositProcessing
  | withdrawalProcessing
  | blockFinalization
  | transactionVerification
  | signatureVerification
  | metricsCollection
  | cacheCleanup
  | databaseMaintenance
  deriving DecidableEq, Inhabited

namespace Kind

def all : List Kind :=
  [depositProcessing, withdrawalProcessing, blockFinalization, transactionVerification,
    signatureVerification, metricsCollection, cacheCleanup, databaseMaintenance]

def name : Kind → String
  | depositProcessing => "deposit-processing"
  | withdrawalProcessing => "withdrawal-processing"
  | blockFinalization => "block-finalization"
  | transactionVerification => "transaction-verification"
  | signatureVerification => "signature-verification"
  | metricsCollection => "metrics-collection"
  | cacheCleanup => "cache-cleanup"
  | databaseMaintenance => "database-maintenance"

/-- the name in capitalised words, as diagnostics show it -/
def label : Kind → String
  | depositProcessing => "DepositProcessing"
  | withdrawalProcessing => "WithdrawalProcessing"
  | blockFinalization => "BlockFinalization"
  | transactionVerification => "TransactionVerification"
  | signatureVerification => "SignatureVerification"
  | metricsCollection => "MetricsCollection"
  | cacheCleanup => "CacheCleanup"
  | databaseMaintenance => "DatabaseMaintenance"

/-- the place of a kind in `Kind.all` -/
def rank : Kind → Nat
  | depositProcessing => 0
  | withdrawalProcessing => 1
  | blockFinalization => 2
  | transactionVerification => 3
  | signatureVerification => 4
  | metricsCollection => 5
  | cacheCleanup => 6
  | databaseMaintenance => 7

/-- the kind of a name, which has to match letter for letter -/
def ofName? (s : String) : Option Kind := all.find? fun k => k.name == s

/-- in increasing order; a kind that comes again stands beside itself -/
def sorted (ks : List Kind) : List Kind := ks.mergeSort fun j k => decide (j.rank ≤ k.rank)

/-- in increasing order, and each kind once -/
def distinct (ks : List Kind) : List Kind := (sorted ks).eraseReps

/-- what is said of a text that names no kind -/
def unknownText (s : String) : String := "unknown task type: " ++ s

theorem mem_all (k : Kind) : k ∈ all := by cases k <;> decide

theorem all_nodup : all.Nodup := by decide

theorem ofName?_name (k : Kind) : ofName? k.name = some k := by cases k <;> decide

theorem rank_injective {j k : Kind} (h : j.rank = k.rank) : j = k := by
  cases j <;> cases k <;> simp_all [rank]

theorem sorted_perm (ks : List Kind) : (sorted ks).Perm ks := List.mergeSort_perm ks _

end Kind

/-! ## sets of kinds -/

structure KindSet where
  /-- each member once -/
  members : List Kind
  deriving DecidableEq

namespace KindSet

def ofList (ks : List Kind) : KindSet := ⟨Kind.all.filter fun k => decide (k ∈ ks)⟩

def toList (s : KindSet) : List Kind := Kind.sorted s.members

def contains (s : KindSet) (k : Kind) : Bool := decide (k ∈ s.members)

def isEmpty (s : KindSet) : Bool := s.members.isEmpty

theorem mem_ofList {ks : List Kind} {k : Kind} : k ∈ (ofList ks).members ↔ k ∈ ks := by
  simp [ofList, Kind.mem_all]

theorem ofList_congr {xs ys : List Kind} (h : ∀ k, k ∈ xs ↔ k ∈ ys) : ofList xs = ofList ys := by
  simp [ofList, h]

theorem toList_eq_nil {s : KindSet} : s.toList = [] ↔ s.members = [] := by
  rw [← List.length_eq_zero_iff, toList, (Kind.sorted_perm _).length_eq, List.length_eq_zero_iff]

theorem contains_ofList (ks : List Kind) (k : Kind) : (ofList ks).contains k = decide (k ∈ ks) := by
  simp [contains, mem_ofList]

end KindSet

end TaskPool
