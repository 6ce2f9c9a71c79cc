import CaseAccess.Database.Row
import CaseAccess.Proofs.RecordReading
import CaseAccess.Proofs.Rows
import Mathlib.Data.List.Sort

/-!
# Tables of records and tables of rows

A table of records is kept as the table of their rows. Each statement on the rows then does
what a function of the records does, if it means the same by a row as the function means
by a record: rows clash just if records have one key, a condition holds of a row just if it
holds of its record, and from the values that are read the record is read. So much is
assumed here, of any kind of record; nothing is said of its columns.
-/

namespace CaseAccess

variable {α β κ : Type} {row : α → SqlRow}

/-! ## Keys in a column -/

theorem SqlValue.text_injective : Function.Injective SqlValue.text := fun _ _ h => by
  cases h
  rfl

theorem SqlValue.integer_injective : Function.Injective fun n : Nat => SqlValue.integer n :=
  fun _ _ h => Int.ofNat.inj (SqlValue.integer.inj h)

theorem SqlValue.ofOption_injective {write : κ → SqlValue} (hwrite : Function.Injective write)
    (hnull : ∀ k, write k ≠ .null) : Function.Injective (ofOption write) := by
  intro o o' h
  cases o with
  | none =>
      cases o' with
      | none => rfl
      | some k => exact absurd h.symm (hnull k)
  | some k =>
      cases o' with
      | none => exact absurd h (hnull k)
      | some k' => exact congrArg some (hwrite h)

section Column

variable [DecidableEq κ] {key : α → κ} {write : κ → SqlValue} {column : String}

theorem SqlRow.meets_key (hwrite : Function.Injective write)
    (hcolumn : ∀ a, (row a).get column = write (key a)) (k : κ) (a : α) :
    (row a).meets [(column, write k)] = decide (key a = k) := by
  rw [meets, List.all_cons, List.all_nil, Bool.and_true, hcolumn, decide_eq_decide]
  exact hwrite.eq_iff

theorem SqlRow.meets_key_ne (hwrite : Function.Injective write)
    (hcolumn : ∀ a, (row a).get column = write (key a)) (k : κ) (a : α) :
    (row a).meets [(column, write k)] = !decide (key a ≠ k) := by
  rw [meets_key hwrite hcolumn, decide_not, Bool.not_not]

theorem SqlRow.clashes_key (hwrite : Function.Injective write)
    (hcolumn : ∀ a, (row a).get column = write (key a)) (a b : α) :
    (row a).clashes [[column]] (row b) = decide (key b = key a) := by
  rw [clashes, List.any_cons, List.any_nil, Bool.or_false, decide_eq_decide]
  simp only [select, List.map_cons, List.map_nil, List.cons.injEq, and_true, hcolumn]
  exact hwrite.eq_iff.trans eq_comm

end Column

/-! ## Several columns -/

theorem SqlRow.meets_cons (c : String × SqlValue) (cs : List (String × SqlValue)) (r : SqlRow) :
    r.meets (c :: cs) = (r.meets [c] && r.meets cs) := by
  simp only [meets, List.all_cons, List.all_nil, Bool.and_true]

theorem SqlRow.cmp_cons (column : String) (columns : List String) (a b : SqlRow) :
    cmp (column :: columns) a b = ((a.get column).cmp (b.get column)).then (cmp columns a b) := rfl

theorem SqlRow.cmp_nil (a b : SqlRow) : cmp [] a b = .eq := rfl

theorem SqlRow.cmp_text {key : α → String} {column : String}
    (hcolumn : ∀ a, (row a).get column = .text (key a)) (a b : α) :
    cmp [column] (row a) (row b) = compare (key a) (key b) := by
  rw [cmp_cons, cmp_nil, Ordering.then_eq, hcolumn, hcolumn]
  rfl

/-! ## Writing -/

namespace SqlTable

section Keyed

variable [DecidableEq κ] {key : α → κ} {unique : List (List String)}

theorem any_clashes (hclash : ∀ a b, (row a).clashes unique (row b) = decide (key b = key a))
    (a : α) (l : List α) :
    (l.map row).any ((row a).clashes unique) = decide (key a ∈ l.map key) := by
  rw [List.any_map, Bool.eq_iff_iff, List.any_eq_true, decide_eq_true_eq, List.mem_map]
  simp only [Function.comp_apply, hclash, decide_eq_true_eq]

theorem add_map (hclash : ∀ a b, (row a).clashes unique (row b) = decide (key b = key a))
    (t : Table key) (a : α) :
    add unique (row a) (t.rows.map row) = (orKeyTaken (t.add? a)).map (·.rows.map row) := by
  rw [add, any_clashes hclash, Table.add?]
  by_cases htaken : key a ∈ t.rows.map key
  · rw [if_pos (decide_eq_true htaken), dif_pos htaken]
    rfl
  · rw [if_neg (mt of_decide_eq_true htaken), dif_neg htaken]
    simp only [orKeyTaken, Except.map, List.map_append, List.map_singleton]

theorem change_map {conditions : List (String × SqlValue)} {columns : List String}
    {values : List SqlValue} {a : α}
    (hmeets : ∀ b, (row b).meets conditions = decide (key b = key a))
    (hset : ∀ b, key b = key a → (row b).set columns values = row a) (t : Table key) :
    change conditions columns values (t.rows.map row) = (t.replace a).rows.map row := by
  rw [change, Table.replace, List.map_map, List.map_map]
  refine List.map_congr_left fun b _ => ?_
  rw [Function.comp_apply, Function.comp_apply, hmeets, Table.instead]
  by_cases hkey : key b = key a
  · rw [if_pos (decide_eq_true hkey), if_pos hkey, hset b hkey]
  · rw [if_neg (mt of_decide_eq_true hkey), if_neg hkey]

theorem put_map {columns : List String}
    (hclash : ∀ a b, (row a).clashes unique (row b) = decide (key b = key a)) {a : α}
    (hset : ∀ b, key b = key a → (row b).set columns ((row a).select columns) = row a)
    (t : Table key) :
    put unique columns (row a) (t.rows.map row) = (t.put a).rows.map row := by
  rw [put, any_clashes hclash, Table.put, Table.add?]
  by_cases htaken : key a ∈ t.rows.map key
  · rw [if_pos (decide_eq_true htaken), dif_pos htaken, Option.getD_none, Table.replace,
      List.map_map, List.map_map]
    refine List.map_congr_left fun b _ => ?_
    rw [Function.comp_apply, Function.comp_apply, hclash, Table.instead]
    by_cases hkey : key b = key a
    · rw [if_pos (decide_eq_true hkey), if_pos hkey, hset b hkey]
    · rw [if_neg (mt of_decide_eq_true hkey), if_neg hkey]
  · rw [if_neg (mt of_decide_eq_true htaken), dif_neg htaken, Option.getD_some, List.map_append,
      List.map_singleton]

end Keyed

variable {conditions : List (String × SqlValue)} {p : α → Bool}

theorem remove_map (hmeets : ∀ a, (row a).meets conditions = !p a) (l : List α) :
    remove conditions (l.map row) = (l.filter p).map row := by
  have hkept : (fun r : SqlRow => !r.meets conditions) ∘ row = p := by
    funext a
    rw [Function.comp_apply, hmeets, Bool.not_not]
  rw [remove, List.filter_map, hkept]

theorem removeNumbered_map (hmeets : ∀ a, (row a).meets conditions = !p a) (t : Numbered α) :
    removeNumbered conditions (t.map row) = (t.filter p).map row := by
  have hrows := remove_map hmeets t.rows
  rw [remove] at hrows
  rw [removeNumbered, Numbered.filter, Numbered.map, hrows]
  rfl

theorem addNumbered_map {unique : List (List String)} {t : Numbered α} {a : Nat → α}
    (hclash : ∀ b ∈ t.rows, (row (a t.next)).clashes unique (row b) = p b) :
    addNumbered unique (fun n => row (a n)) (t.map row) =
      if t.rows.any p then .error .keyTaken else .ok ((t.add a).map row) := by
  have hany : (t.map row).rows.any ((row (a t.next)).clashes unique) = t.rows.any p := by
    rw [Numbered.map, List.any_map, Bool.eq_iff_iff, List.any_eq_true, List.any_eq_true]
    exact exists_congr fun b => and_congr_right fun hb => by rw [Function.comp_apply, hclash b hb]
  have hadd : (t.map row).add (fun n => row (a n)) = (t.add a).map row := by
    simp only [Numbered.add, Numbered.map, List.map_append, List.map_singleton]
    rfl
  rw [addNumbered, hadd]
  exact if_congr (by rw [← hany]; rfl) rfl rfl

end SqlTable

/-! ## Reading -/

namespace Selection

variable {q : Selection} {ofValues? : List SqlValue → Option β} {f : α → β} {p : α → Bool}

theorem readOne_map (hmeets : ∀ a, (row a).meets q.conditions = p a)
    (hread : ∀ a, p a = true → ofValues? ((row a).select q.columns) = some (f a)) (l : List α) :
    q.readOne ofValues? (l.map row) = .ok ((l.find? p).map f) := by
  have hfound : (fun r : SqlRow => r.meets q.conditions) ∘ row = p := funext hmeets
  rw [readOne, List.find?_map, hfound]
  cases hfind : l.find? p with
  | none => rfl
  | some a =>
      simp only [Option.map_some, hread a (List.find?_some hfind), orUnreadable, Except.map]

theorem read_map {le : α → α → Bool} (hmeets : ∀ a, (row a).meets q.conditions = p a)
    (hread : ∀ a, ofValues? ((row a).select q.columns) = some (f a))
    (horder : ∀ a b, (SqlRow.cmp q.order (row a) (row b)).isLE = le a b) (l : List α) :
    q.read ofValues? (l.map row) = .ok (((l.filter p).mergeSort le).map f) := by
  have hselected : (fun r : SqlRow => r.meets q.conditions) ∘ row = p := funext hmeets
  have hsorted := List.map_mergeSort (f := row) (l := l.filter p) (r := le)
    (s := fun a b => (SqlRow.cmp q.order a b).isLE) fun a _ b _ => (horder a b).symm
  have hvalues : (((l.filter p).mergeSort le).map row).mapM
      (fun r => ofValues? (r.select q.columns)) = some (((l.filter p).mergeSort le).map f) := by
    refine Json.mapM_eq_some ?_ _
    exact hread
  rw [read, List.filter_map, hselected]
  simp only [← hsorted, hvalues, orUnreadable]

/-- Rows that are put into no order are read as they stand. -/
theorem read_map_unordered (hq : q.order = []) (hmeets : ∀ a, (row a).meets q.conditions = p a)
    (hread : ∀ a, ofValues? ((row a).select q.columns) = some (f a)) (l : List α) :
    q.read ofValues? (l.map row) = .ok ((l.filter p).map f) := by
  have horder : ∀ a b, (SqlRow.cmp q.order (row a) (row b)).isLE = true := by
    intro a b
    rw [hq]
    rfl
  have hsame : (l.filter p).mergeSort (fun _ _ => true) = l.filter p :=
    List.mergeSort_of_pairwise (List.pairwise_of_forall fun _ _ => rfl)
  rw [read_map hmeets hread horder, hsame]

end Selection

/-! ## Numbered rows -/

section Number

variable {number : α → Nat}

theorem SqlRow.isLE_cmp_number (hnumber : ∀ a, (row a).get "id" = .integer (number a)) (a b : α) :
    (cmp ["id"] (row a) (row b)).isLE = decide (number a ≤ number b) := by
  rw [cmp_cons, cmp_nil, Ordering.then_eq, hnumber, hnumber, Bool.eq_iff_iff, decide_eq_true_eq]
  exact Std.isLE_compare.trans Int.ofNat_le

variable {columns : List String} {ofValues? : List SqlValue → Option α}

theorem SqlTable.takeNumbered_map (hnumber : ∀ a, (row a).get "id" = .integer (number a))
    (hread : ∀ a, ofValues? ((row a).select columns) = some a) (n : Nat) (t : Numbered α) :
    takeNumbered columns ofValues? n (t.map row) =
      .ok (t.rows.find? (number · = n), (t.filter (number · ≠ n)).map row) := by
  have hfound : Selection.readOne { columns, conditions := [("id", .integer n)] } ofValues?
      (t.map row).rows = .ok (t.rows.find? (number · = n)) := by
    rw [Numbered.map, Selection.readOne_map
      (SqlRow.meets_key SqlValue.integer_injective hnumber n) (fun a _ => hread a), Option.map_id']
  rw [takeNumbered, hfound]
  cases hrow : t.rows.find? (number · = n) with
  | none =>
      have hall : t.rows.filter (number · ≠ n) = t.rows := by
        rw [List.filter_eq_self]
        intro a ha
        simpa using List.find?_eq_none.1 hrow a ha
      rw [Numbered.filter, hall]
      rfl
  | some a =>
      rw [← removeNumbered_map (SqlRow.meets_key_ne SqlValue.integer_injective hnumber n)]
      rfl

end Number

end CaseAccess
