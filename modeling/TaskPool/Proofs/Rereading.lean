import TaskPool.Json.Shape
import TaskPool.Proofs.Decimals
import TaskPool.Proofs.Quoting
import Mathlib.Algebra.Ring.Nat
import Mathlib.Data.List.Forall2
import Mathlib.Data.List.Nodup

/-!
# Shapes read what is written

* `Shape.Reads`      a shape reads a value back from the value's own text, and stops behind it
* `Json.Opens`       how the text of a value begins that is not null
* `reads_parsed`, `reads_choice`, `reads_word`, `reads_boolean`, `reads_optional`   simple values
* `reads_list`, `reads_table`, `reads_record`   values with parts, if the parts are read
* `ofText_of_reads`  a whole text

Why the readers of lists and objects need no more fuel than the length of the text: every part has a
comma or a closing bracket behind it.
-/

namespace TaskPool

open Json

namespace Json

/-! ## the first character -/

/-- the text begins with a character that is neither a blank nor the `n` of null, nor the end of a
list -/
def Opens (j : Json) : Prop :=
  ∃ c cs, j.chars = c :: cs ∧ isBlank c = false ∧ c ≠ 'n' ∧ c ≠ ']'

theorem opens_string (s : String) : Opens (.string s) :=
  ⟨'"', _, rfl, by decide, by decide, by decide⟩

theorem opens_array (vs : List Json) : Opens (.array vs) :=
  ⟨'[', _, rfl, by decide, by decide, by decide⟩

theorem chars_ofNat (n : Nat) : (ofNat n).chars = Nat.toDigits 10 n := numberChars_ofNat n

theorem exists_digit_toDigits (n : Nat) :
    ∃ c cs, Nat.toDigits 10 n = c :: cs ∧ isDigit c = true :=
  exists_head Nat.toDigits_ne_nil fun _ => Rfc3339.isDigit_of_mem_toDigits

theorem opens_ofNat (n : Nat) : Opens (ofNat n) := by
  obtain ⟨c, cs, hcs, hc⟩ := exists_digit_toDigits n
  refine ⟨c, cs, (chars_ofNat n).trans hcs, ?_, ?_, ?_⟩
  · simp only [isDigit, Bool.and_eq_true, decide_eq_true_eq] at hc
    simp only [isBlank, Bool.or_eq_false_iff, beq_eq_false_iff_ne]
    refine ⟨⟨⟨?_, ?_⟩, ?_⟩, ?_⟩ <;> rintro rfl <;> exact absurd hc.1 (by decide)
  · rintro rfl
    exact absurd hc (by decide)
  · rintro rfl
    exact absurd hc (by decide)

theorem skipBlank_of_not_blank {c : Char} (h : isBlank c = false) (cs : List Char) :
    skipBlank (c :: cs) = c :: cs := by
  rw [skipBlank, List.dropWhile_cons, h]
  rfl

theorem Opens.skipBlank_append {j : Json} (h : Opens j) (rest : List Char) :
    skipBlank (j.chars ++ rest) = j.chars ++ rest := by
  obtain ⟨c, cs, hcs, hc, -, -⟩ := h
  rw [hcs, List.cons_append, skipBlank_of_not_blank hc]

end Json

namespace Shape

/-- the value is read back from its own text, up to the end of that text -/
def Reads (s : Shape) (depth : Nat) (j : Json) : Prop :=
  ∀ rest, Ends rest → s.read depth (j.chars ++ rest) = .ok (j, rest)

variable {depth : Nat}

/-! ## simple values -/

theorem read_parsed {expected : String} {convert : String → Except Reason Json} (s : String)
    (rest : List Char) :
    (parsed expected convert).read depth (quote s ++ rest) = place rest (convert s) := by
  rw [quote_eq]
  show (stringBody (escape s.toList ++ '"' :: rest)).bind (fun r => place r.2 (convert r.1)) = _
  rw [stringBody_escape]
  rfl

theorem reads_parsed {expected : String} {convert : String → Except Reason Json} {s : String}
    (h : convert s = .ok (.string s)) : (parsed expected convert).Reads depth (.string s) := by
  intro rest _
  show (parsed expected convert).read depth (quote s ++ rest) = _
  rw [read_parsed, h]
  rfl

theorem reads_string (s : String) : string.Reads depth (.string s) := reads_parsed rfl

theorem read_variant {names : List String} {name : String} (h : name ∈ names) (rest : List Char) :
    (variant names).read depth (quote name ++ rest) = .ok (.string name, rest) := by
  rw [variant, read_parsed, if_pos h]
  rfl

theorem reads_choice {names : List String} {name : String} (h : name ∈ names) :
    (choice names).Reads depth (.string name) := by
  intro rest _
  show (choice names).read depth (quote name ++ rest) = _
  rw [quote_eq]
  show (variant names).read 0 ('"' :: _) = _
  rw [← quote_eq, read_variant h]

theorem reads_boolean (b : Bool) : boolean.Reads depth (.bool b) := by
  intro rest _
  cases b <;> rfl

theorem reads_word {name : String} {bits n : Nat} (hb : bits ≤ 64) (h : n < 2 ^ bits) :
    (word name bits).Reads depth (.ofNat n) := by
  intro rest hr
  have hsize : n < UInt64.size := Nat.lt_of_lt_of_le h (Nat.pow_le_pow_right (by omega) hb)
  have hnumber := readNumber_toDigits hsize hr
  have hopens := (opens_ofNat n).skipBlank_append rest
  have hfits : 0 ≤ (n : Int) ∧ (n : Int).toNat < 1 <<< bits := by
    rw [Nat.one_shiftLeft]
    exact ⟨Int.natCast_nonneg n, h⟩
  obtain ⟨c, cs, hcs, hc⟩ := exists_digit_toDigits n
  have hminus : c ≠ '-' := by
    rintro rfl
    exact absurd hc (by decide)
  rw [chars_ofNat, hcs, List.cons_append] at hopens
  rw [hcs, List.cons_append] at hnumber
  rw [chars_ofNat, hcs, List.cons_append]
  unfold word numeric
  dsimp only
  rw [hopens]
  split
  · rename_i heq
    cases heq
  · rename_i heq
    exact absurd (List.cons.inj heq).1 hminus
  · rename_i heq
    cases heq
    rw [if_pos hc, hnumber]
    show place rest (if 0 ≤ (n : Int) ∧ (n : Int).toNat < 1 <<< bits then _ else _) = _
    rw [if_pos hfits]
    rfl

theorem reads_optional_null (s : Shape) : (optional s).Reads depth Json.null :=
  fun _ _ => rfl

theorem reads_optional {s : Shape} {j : Json} (hj : Opens j) (h : s.Reads depth j) :
    (optional s).Reads depth j := by
  intro rest hr
  have hread := h rest hr
  obtain ⟨c, cs, hcs, hblank, hn, -⟩ := hj
  rw [hcs, List.cons_append] at hread ⊢
  unfold optional
  dsimp only
  rw [skipBlank_of_not_blank hblank]
  split
  · rename_i heq
    exact absurd (List.cons.inj heq).1 hn
  · exact hread

end Shape

/-! ## parts with commas between them -/

namespace Json

/-- the parts behind the first one -/
def tails (parts : List (List Char)) : List Char := parts.flatMap (',' :: ·)

theorem commaSeparated_cons (part : List Char) (parts : List (List Char)) :
    commaSeparated (part :: parts) = part ++ tails parts := by
  induction parts generalizing part with
  | nil => simp [commaSeparated, tails]
  | cons next parts ih =>
    have hstep : commaSeparated (part :: next :: parts)
        = part ++ ',' :: commaSeparated (next :: parts) := by
      simp [commaSeparated, List.intercalate]
    rw [hstep, ih]
    rfl

theorem length_le_tails (parts : List (List Char)) : parts.length ≤ (tails parts).length := by
  induction parts with
  | nil => exact Nat.zero_le _
  | cons part parts ih =>
    show parts.length + 1 ≤ (',' :: part ++ tails parts).length
    rw [List.length_append, List.length_cons]
    omega

theorem ends_tails_bracket (parts : List (List Char)) (rest : List Char) :
    Ends (tails parts ++ ']' :: rest) := by
  cases parts with
  | nil => exact ends_bracket rest
  | cons part parts => exact ends_comma _

theorem ends_tails_brace (parts : List (List Char)) (rest : List Char) :
    Ends (tails parts ++ '\x7d' :: rest) := by
  cases parts with
  | nil => exact ends_brace rest
  | cons part parts => exact ends_comma _

theorem charsOfItems_eq_map (vs : List Json) : charsOfItems vs = vs.map chars := by
  induction vs with
  | nil => rfl
  | cons v vs ih => rw [charsOfItems, ih, List.map_cons]

/-! ## lists -/

theorem nextItem_first {j : Json} (hj : Opens j) (rest : List Char) :
    nextItem true (j.chars ++ rest) = .ok (true, j.chars ++ rest) := by
  have hskip := hj.skipBlank_append rest
  obtain ⟨c, cs, hcs, -, -, hend⟩ := hj
  unfold nextItem
  rw [hskip, hcs, List.cons_append]
  split
  · rename_i heq
    cases heq
  · rename_i heq
    exact absurd (List.cons.inj heq).1 hend
  · rename_i heq
    rw [if_pos rfl, heq]

theorem nextItem_next {j : Json} (hj : Opens j) (rest : List Char) :
    nextItem false (',' :: (j.chars ++ rest)) = .ok (true, j.chars ++ rest) := by
  have hskip := hj.skipBlank_append rest
  obtain ⟨c, cs, hcs, -, -, hend⟩ := hj
  have hcomma : skipBlank (',' :: (j.chars ++ rest)) = ',' :: (j.chars ++ rest) := rfl
  unfold nextItem
  rw [hcomma]
  split
  · rename_i heq
    cases heq
  · rename_i heq
    exact absurd (List.cons.inj heq).1 (by decide)
  · rename_i heq
    cases heq
    rw [if_neg Bool.false_ne_true, if_pos rfl, hskip, hcs, List.cons_append]
    split
    · rename_i heq
      cases heq
    · rename_i heq
      exact absurd (List.cons.inj heq).1 hend
    · rfl

/-- the items behind the first one -/
theorem itemsFrom_tails {one : Reader Json} {vs : List Json} (hopens : ∀ v ∈ vs, Opens v)
    (hone : ∀ v ∈ vs, ∀ rest, Ends rest → one (v.chars ++ rest) = .ok (v, rest)) {fuel : Nat}
    (hf : vs.length < fuel) (rest : List Char) :
    itemsFrom one fuel false (tails (charsOfItems vs) ++ ']' :: rest) = .ok (vs, rest) := by
  induction vs generalizing fuel with
  | nil =>
    cases fuel with
    | zero => cases hf
    | succ fuel => rfl
  | cons v vs ih =>
    cases fuel with
    | zero => cases hf
    | succ fuel =>
      have htail := ih (fun v hv => hopens v (List.mem_cons_of_mem _ hv))
        (fun v hv => hone v (List.mem_cons_of_mem _ hv)) (Nat.lt_of_succ_lt_succ hf)
      have htext : tails (charsOfItems (v :: vs)) ++ ']' :: rest
          = ',' :: (v.chars ++ (tails (charsOfItems vs) ++ ']' :: rest)) := by
        simp [charsOfItems, tails]
      rw [htext, itemsFrom, nextItem_next (hopens v (List.mem_cons_self ..))]
      simp only [bind, Except.bind, if_true, hone v (List.mem_cons_self ..) _
        (ends_tails_bracket _ rest), htail]
      rfl

theorem items_chars {one : Reader Json} {vs : List Json} (hopens : ∀ v ∈ vs, Opens v)
    (hone : ∀ v ∈ vs, ∀ rest, Ends rest → one (v.chars ++ rest) = .ok (v, rest))
    (rest : List Char) :
    items one (commaSeparated (charsOfItems vs) ++ ']' :: rest) = .ok (vs, rest) := by
  cases vs with
  | nil => rfl
  | cons v vs =>
    have htext : commaSeparated (charsOfItems (v :: vs)) ++ ']' :: rest
        = v.chars ++ (tails (charsOfItems vs) ++ ']' :: rest) := by
      rw [charsOfItems, commaSeparated_cons, List.append_assoc]
    have hfuel : vs.length < (v.chars ++ (tails (charsOfItems vs) ++ ']' :: rest)).length := by
      have hle := length_le_tails (charsOfItems vs)
      rw [charsOfItems_eq_map, List.length_map, ← charsOfItems_eq_map] at hle
      simp only [List.length_append, List.length_cons]
      omega
    have htail := itemsFrom_tails (fun v hv => hopens v (List.mem_cons_of_mem _ hv))
      (fun v hv => hone v (List.mem_cons_of_mem _ hv)) hfuel rest
    rw [htext, items, itemsFrom, nextItem_first (hopens v (List.mem_cons_self ..))]
    simp only [bind, Except.bind, if_true, hone v (List.mem_cons_self ..) _
      (ends_tails_bracket _ rest), htail]
    rfl

/-! ## objects -/

def memberChars (m : String × Json) : List Char := quote m.1 ++ ':' :: m.2.chars

theorem charsOfMembers_eq_map (ms : List (String × Json)) :
    charsOfMembers ms = ms.map memberChars := by
  induction ms with
  | nil => rfl
  | cons m ms ih => rw [charsOfMembers, ih, List.map_cons, memberChars]

theorem nextKey_first (name : String) (rest : List Char) :
    nextKey true (quote name ++ rest) = .ok (true, quote name ++ rest) := by
  rw [quote_eq]
  rfl

theorem nextKey_next (name : String) (rest : List Char) :
    nextKey false (',' :: (quote name ++ rest)) = .ok (true, quote name ++ rest) := by
  rw [quote_eq]
  rfl

theorem key_quote (name : String) (rest : List Char) :
    key (quote name ++ rest) = .ok (name, rest) := by
  rw [quote_eq]
  exact stringBody_escape name rest

theorem colon_self (rest : List Char) : colon (':' :: rest) = .ok rest := rfl

/-- one member more is read behind those that were read before -/
def Extends (one : List (String × Json) → Reader (List (String × Json)))
    (before : List (String × Json)) (m : String × Json) : Prop :=
  ∀ rest, Ends rest → one before (memberChars m ++ rest) = .ok (before ++ [m], rest)

variable {one : List (String × Json) → Reader (List (String × Json))}

/-- the members behind the first one, each read behind those that were read before -/
theorem entriesFrom_tails {before ms : List (String × Json)}
    (hone : ∀ earlier m later, earlier ++ m :: later = ms → Extends one (before ++ earlier) m)
    {fuel : Nat} (hf : ms.length < fuel) (rest : List Char) :
    entriesFrom one fuel false before (tails (charsOfMembers ms) ++ '\x7d' :: rest)
      = .ok (before ++ ms, '\x7d' :: rest) := by
  -- on the members that are left; those that were read move over to `before`
  induction ms generalizing before fuel with
  | nil =>
    cases fuel with
    | zero => cases hf
    | succ fuel =>
      rw [List.append_nil]
      rfl
  | cons m ms ih =>
    cases fuel with
    | zero => cases hf
    | succ fuel =>
      have hread : Extends one before m := by
        have hfirst := hone [] m ms rfl
        rwa [List.append_nil] at hfirst
      have htail : entriesFrom one fuel false (before ++ [m])
          (tails (charsOfMembers ms) ++ '\x7d' :: rest)
          = .ok (before ++ [m] ++ ms, '\x7d' :: rest) := by
        refine ih (fun earlier m' later heq => ?_) (Nat.lt_of_succ_lt_succ hf)
        have hlater := hone (m :: earlier) m' later (by rw [← heq]; rfl)
        rwa [List.append_assoc, List.singleton_append]
      have htext : tails (charsOfMembers (m :: ms)) ++ '\x7d' :: rest
          = ',' :: (quote m.1 ++ (':' :: m.2.chars ++
            (tails (charsOfMembers ms) ++ '\x7d' :: rest))) := by
        simp [charsOfMembers, tails]
      have hfirst := hread _ (ends_tails_brace (charsOfMembers ms) rest)
      rw [memberChars, List.append_assoc] at hfirst
      rw [htext, entriesFrom, nextKey_next]
      simp only [bind, Except.bind, if_true, hfirst, htail, List.append_assoc,
        List.singleton_append]

theorem entries_chars {ms : List (String × Json)}
    (hone : ∀ earlier m later, earlier ++ m :: later = ms → Extends one earlier m)
    (rest : List Char) :
    entries one [] (commaSeparated (charsOfMembers ms) ++ '\x7d' :: rest)
      = .ok (ms, '\x7d' :: rest) := by
  cases ms with
  | nil => rfl
  | cons m ms =>
    have htext : commaSeparated (charsOfMembers (m :: ms)) ++ '\x7d' :: rest
        = quote m.1 ++ (':' :: m.2.chars ++ (tails (charsOfMembers ms) ++ '\x7d' :: rest)) := by
      rw [charsOfMembers, commaSeparated_cons, List.append_assoc, List.append_assoc]
    have hfuel : ms.length < (quote m.1 ++
        (':' :: m.2.chars ++ (tails (charsOfMembers ms) ++ '\x7d' :: rest))).length := by
      have hle := length_le_tails (charsOfMembers ms)
      rw [charsOfMembers_eq_map, List.length_map, ← charsOfMembers_eq_map] at hle
      simp only [List.length_append, List.length_cons]
      omega
    have hlater (earlier later : List (String × Json)) (m' : String × Json)
        (heq : earlier ++ m' :: later = ms) : Extends one ([m] ++ earlier) m' :=
      hone (m :: earlier) m' later (by rw [← heq]; rfl)
    have htail := entriesFrom_tails (fun earlier m' later heq => hlater earlier later m' heq) hfuel
      rest
    have hfirst := hone [] m ms rfl _ (ends_tails_brace (charsOfMembers ms) rest)
    rw [memberChars, List.append_assoc] at hfirst
    rw [htext, entries, entriesFrom, nextKey_first]
    simp only [bind, Except.bind, if_true, hfirst]
    exact htail

end Json

namespace Shape

variable {depth : Nat}

theorem reads_list {s : Shape} {vs : List Json} (hopens : ∀ v ∈ vs, Opens v)
    (h : ∀ v ∈ vs, s.Reads depth v) : (list s).Reads (depth + 1) (.array vs) := by
  intro rest _
  have hitems := items_chars hopens (fun v hv => h v hv) rest
  have htext : (Json.array vs).chars ++ rest
      = '[' :: (commaSeparated (charsOfItems vs) ++ ']' :: rest) := by
    simp [chars]
  rw [htext]
  show (items (s.read depth) (commaSeparated (charsOfItems vs) ++ ']' :: rest)).map
    (fun r => (Json.array r.1, r.2)) = _
  rw [hitems]
  rfl

theorem chars_object (ms : List (String × Json)) (rest : List Char) :
    (Json.object ms).chars ++ rest
      = '\x7b' :: (commaSeparated (charsOfMembers ms) ++ '\x7d' :: rest) := by
  simp [chars]

/-! ## tables -/

theorem extends_tableEntry {names : List String} {value : Reader Json} {m : String × Json}
    (hname : m.1 ∈ names)
    (hvalue : ∀ rest, Ends rest → value (m.2.chars ++ rest) = .ok (m.2, rest))
    (before : List (String × Json)) : Extends (tableEntry names value) before m := by
  intro rest hr
  rw [memberChars, List.append_assoc]
  unfold tableEntry
  rw [read_variant hname]
  simp only [bind, Except.bind, colon_self, List.cons_append, hvalue rest hr]
  rfl

/-- under names that are all different, every member is found -/
theorem lookup_of_mem {ms : List (String × Json)} (hn : (ms.map Prod.fst).Nodup)
    {m : String × Json} (h : m ∈ ms) : ms.lookup m.1 = some m.2 := by
  induction ms with
  | nil => cases h
  | cons m' ms ih =>
    obtain ⟨hnot, hn⟩ := List.nodup_cons.mp hn
    rcases List.mem_cons.mp h with rfl | h
    · exact List.lookup_cons_self
    · have hne : m.1 ≠ m'.1 := by
        intro heq
        exact hnot (heq ▸ List.mem_map_of_mem h)
      rw [List.lookup_cons, beq_false_of_ne hne]
      exact ih hn h

theorem lookup_of_not_mem {ms : List (String × Json)} {name : String}
    (h : name ∉ ms.map Prod.fst) : ms.lookup name = none := by
  refine List.lookup_eq_none_iff.mpr fun m hm => bne_iff_ne.mpr ?_
  rintro rfl
  exact h (List.mem_map_of_mem hm)

/-- what is looked up name by name is the list itself, if its names are in that order -/
theorem filterMap_lookup {names : List String} {ms : List (String × Json)}
    {look : String → Option Json} (hn : names.Nodup) (hs : (ms.map Prod.fst).Sublist names)
    (hsome : ∀ m ∈ ms, look m.1 = some m.2)
    (hnone : ∀ name ∈ names, name ∉ ms.map Prod.fst → look name = none) :
    names.filterMap (fun name => (look name).map fun v => (name, v)) = ms := by
  induction names generalizing ms with
  | nil => exact (List.map_eq_nil_iff.mp (List.sublist_nil.mp hs)).symm
  | cons name names ih =>
    obtain ⟨hnot, hrest⟩ := List.nodup_cons.mp hn
    rcases List.sublist_cons_iff.mp hs with hs | ⟨keys, hkeys, hs⟩
    · have hout : look name = none :=
        hnone name (List.mem_cons_self ..) fun h => hnot (hs.subset h)
      rw [List.filterMap_cons, hout]
      exact ih hrest hs hsome fun name hname => hnone name (List.mem_cons_of_mem _ hname)
    · obtain ⟨m, ms, rfl, rfl, rfl⟩ := List.map_eq_cons_iff.mp hkeys
      rw [List.filterMap_cons, hsome m (List.mem_cons_self ..)]
      have htail : names.filterMap (fun name => (look name).map fun v => (name, v)) = ms := by
        refine ih hrest hs (fun m hm => hsome m (List.mem_cons_of_mem _ hm)) ?_
        intro name hname hout
        refine hnone name (List.mem_cons_of_mem _ hname) fun h => ?_
        rcases List.mem_cons.mp h with rfl | h
        · exact hnot hname
        · exact hout h
      exact congrArg (m :: ·) htail

/-- what stands in the order of the names keeps its order -/
theorem inOrder_eq_self {names : List String} {ms : List (String × Json)} (hn : names.Nodup)
    (hs : (ms.map Prod.fst).Sublist names) : inOrder names ms = ms := by
  have hkeys : (ms.reverse.map Prod.fst).Nodup := by
    rw [List.map_reverse]
    exact List.nodup_reverse.mpr (hs.nodup hn)
  refine filterMap_lookup hn hs (fun m hm => ?_) fun name _ hout => ?_
  · exact lookup_of_mem hkeys (List.mem_reverse.mpr hm)
  · refine lookup_of_not_mem ?_
    rw [List.map_reverse]
    exact fun h => hout (List.mem_reverse.mp h)

theorem reads_table {names : List String} {s : Shape} {ms : List (String × Json)}
    (hn : names.Nodup) (hs : (ms.map Prod.fst).Sublist names)
    (h : ∀ m ∈ ms, s.Reads depth m.2) : (table names s).Reads (depth + 1) (.object ms) := by
  intro rest _
  have hentries : entries (tableEntry names (s.read depth)) []
      (commaSeparated (charsOfMembers ms) ++ '\x7d' :: rest) = .ok (ms, '\x7d' :: rest) := by
    refine entries_chars (fun earlier m later heq => ?_) rest
    have hm : m ∈ ms := by
      rw [← heq]
      simp
    exact extends_tableEntry (hs.subset (List.mem_map_of_mem hm)) (h m hm) earlier
  rw [chars_object]
  show (entries (tableEntry names (s.read depth)) []
    (commaSeparated (charsOfMembers ms) ++ '\x7d' :: rest)).map
      (fun r => (Json.object (inOrder names r.1), r.2.drop 1)) = _
  rw [hentries]
  show Except.ok (Json.object (inOrder names ms), rest) = _
  rw [inOrder_eq_self hn hs]

/-! ## records -/

/-- a field of a record, and the member that is written for it -/
def Fills (depth : Nat) (f : Field) (m : String × Json) : Prop :=
  f.name = m.1 ∧ f.shape.Reads depth m.2

theorem find?_field {fields : List Field} (hn : (fields.map Field.name).Nodup) {f : Field}
    (h : f ∈ fields) : fields.find? (fun g => g.name == f.name) = some f := by
  induction fields with
  | nil => cases h
  | cons g fields ih =>
    obtain ⟨hnot, hn⟩ := List.nodup_cons.mp hn
    rcases List.mem_cons.mp h with rfl | h
    · rw [List.find?_cons, beq_self_eq_true]
    · have hne : g.name ≠ f.name := by
        intro heq
        exact hnot (heq ▸ List.mem_map_of_mem h)
      rw [List.find?_cons, beq_false_of_ne hne]
      exact ih hn h

theorem extends_recordEntry {fields : List Field} (hn : (fields.map Field.name).Nodup) {f : Field}
    (hf : f ∈ fields) {m : String × Json} (h : Fills depth f m) {before : List (String × Json)}
    (hbefore : before.lookup m.1 = none) : Extends (recordEntry fields depth) before m := by
  intro rest hr
  obtain ⟨hname, hreads⟩ := h
  have hfind : fields.find? (fun g => g.name == m.1) = some f := hname ▸ find?_field hn hf
  rw [memberChars, List.append_assoc]
  unfold recordEntry
  rw [key_quote]
  simp only [bind, Except.bind, hfind, hbefore, Option.isSome_none, Bool.false_eq_true, if_false,
    List.cons_append, colon_self, hreads rest hr]
  rfl

/-- fields that were all given are complete -/
theorem complete_of_lookup {given ms : List (String × Json)} {fields : List Field}
    (hnames : fields.map Field.name = ms.map Prod.fst)
    (h : ∀ m ∈ ms, given.lookup m.1 = some m.2) : complete given fields = .ok ms := by
  induction fields generalizing ms with
  | nil =>
    rw [List.map_eq_nil_iff.mp hnames.symm]
    rfl
  | cons f fields ih =>
    obtain ⟨m, ms, rfl, hm, hms⟩ := List.map_eq_cons_iff.mp hnames.symm
    have hrest := ih hms.symm fun m hm => h m (List.mem_cons_of_mem _ hm)
    unfold complete at hrest ⊢
    rw [List.mapM_cons, hrest, ← hm, h m (List.mem_cons_self ..)]
    rfl

theorem map_name_of_fills {fields : List Field} {ms : List (String × Json)}
    (h : List.Forall₂ (Fills depth) fields ms) : fields.map Field.name = ms.map Prod.fst := by
  induction h with
  | nil => rfl
  | cons hfirst _ ih => rw [List.map_cons, List.map_cons, hfirst.1, ih]

theorem exists_field {fields : List Field} {ms : List (String × Json)}
    (h : List.Forall₂ (Fills depth) fields ms) {m : String × Json} (hm : m ∈ ms) :
    ∃ f ∈ fields, Fills depth f m := by
  induction h with
  | nil => cases hm
  | cons hfirst _ ih =>
    rcases List.mem_cons.mp hm with rfl | hm
    · exact ⟨_, List.mem_cons_self .., hfirst⟩
    · obtain ⟨f, hf, hfills⟩ := ih hm
      exact ⟨f, List.mem_cons_of_mem _ hf, hfills⟩

/-- **a record is read back if its fields are** -/
theorem reads_record {name : String} {fields : List Field} {ms : List (String × Json)}
    (hn : (fields.map Field.name).Nodup) (h : List.Forall₂ (Fills depth) fields ms) :
    (record name fields).Reads (depth + 1) (.object ms) := by
  intro rest _
  have hkeys : (ms.map Prod.fst).Nodup := map_name_of_fills h ▸ hn
  have hentries : entries (recordEntry fields depth) []
      (commaSeparated (charsOfMembers ms) ++ '\x7d' :: rest) = .ok (ms, '\x7d' :: rest) := by
    refine entries_chars (fun earlier m later heq => ?_) rest
    obtain ⟨f, hf, hfills⟩ := exists_field h (m := m) (by rw [← heq]; simp)
    refine extends_recordEntry hn hf hfills (lookup_of_not_mem ?_)
    rw [← heq, List.map_append, List.map_cons] at hkeys
    exact fun hmem => (List.nodup_append.mp hkeys).2.2 _ hmem _ (List.mem_cons_self ..) rfl
  have hcomplete : complete ms fields = .ok ms :=
    complete_of_lookup (map_name_of_fills h) fun m hm => lookup_of_mem hkeys hm
  rw [chars_object]
  show (entries (recordEntry fields depth) []
    (commaSeparated (charsOfMembers ms) ++ '\x7d' :: rest)).bind
      (fun r => place (r.2.drop 1) ((complete r.1 fields).map Json.object)) = _
  rw [hentries]
  show place rest ((complete ms fields).map Json.object) = _
  rw [hcomplete]
  rfl

/-! ## whole texts -/

theorem ofText_of_reads {s : Shape} {j : Json} (h : s.Reads nestingLimit j) :
    s.ofText j.text = .ok j := by
  have hread := h [] ends_nil
  rw [List.append_nil] at hread
  rw [ofText, text, String.toList_ofList, hread]
  rfl

end Shape

end TaskPool
