import CaseAccess.Sorted.Set

/-!
# Finite tables in sorted form

A table is the list of its entries in increasing order of their keys, each key
once. Of two entries given for one key the later one stands.
-/

namespace CaseAccess

/-- The entries of a finite table, in increasing order of their keys. -/
structure SortedMap (α β : Type) [Ord α] where
  toList : List (α × β)
  sorted : toList.Pairwise fun p q => Before p.1 q.1

namespace SortedMap

variable {α β : Type} [Ord α]

theorem ext_toList {s t : SortedMap α β} (h : s.toList = t.toList) : s = t := by
  cases s; cases t; cases h; rfl

instance [DecidableEq α] [DecidableEq β] : DecidableEq (SortedMap α β) := fun s t =>
  if h : s.toList = t.toList then isTrue (ext_toList h)
  else isFalse fun e => h (e ▸ rfl)

instance [Repr α] [Repr β] : Repr (SortedMap α β) := ⟨fun s n => reprPrec s.toList n⟩

def empty : SortedMap α β := ⟨[], .nil⟩

instance : EmptyCollection (SortedMap α β) := ⟨empty⟩
instance : Inhabited (SortedMap α β) := ⟨empty⟩

def isEmpty (m : SortedMap α β) : Bool := m.toList.isEmpty

def keys (m : SortedMap α β) : List α := m.toList.map (·.1)

/-- The value at a key. -/
def get? [DecidableEq α] (m : SortedMap α β) (k : α) : Option β :=
  (m.toList.find? (·.1 = k)).map (·.2)

/-- Puts an entry into its place in a sorted list, instead of one that is there. -/
def insertSorted (k : α) (v : β) : List (α × β) → List (α × β)
  | [] => [(k, v)]
  | p :: rest =>
      match compare k p.1 with
      | .lt => (k, v) :: p :: rest
      | .eq => (k, v) :: rest
      | .gt => p :: insertSorted k v rest

theorem key_of_mem_insertSorted {k : α} {v : β} {x : α × β} {l : List (α × β)}
    (h : x ∈ insertSorted k v l) : x = (k, v) ∨ x ∈ l := by
  induction l with
  | nil => simpa [insertSorted] using h
  | cons p rest ih =>
      rw [insertSorted] at h
      split at h
      · simpa using h
      · exact (List.mem_cons.1 h).imp id (List.mem_cons_of_mem _)
      · rcases List.mem_cons.1 h with rfl | h
        · exact .inr (by simp)
        · exact (ih h).imp id (List.mem_cons_of_mem _)

variable [Std.TransOrd α]

theorem pairwise_insertSorted (k : α) (v : β) {l : List (α × β)}
    (h : l.Pairwise fun p q => Before p.1 q.1) :
    (insertSorted k v l).Pairwise fun p q => Before p.1 q.1 := by
  induction l with
  | nil => simp [insertSorted]
  | cons p rest ih =>
      have hp := List.pairwise_cons.1 h
      rw [insertSorted]
      split
      · next hlt =>
        refine List.pairwise_cons.2 ⟨fun c hc => ?_, h⟩
        rcases List.mem_cons.1 hc with rfl | hc
        · exact hlt
        · exact Std.TransCmp.lt_trans hlt (hp.1 c hc)
      · next heq =>
        refine List.pairwise_cons.2 ⟨fun c hc => ?_, hp.2⟩
        exact Std.TransCmp.lt_of_eq_of_lt heq (hp.1 c hc)
      · next hgt =>
        refine List.pairwise_cons.2 ⟨fun c hc => ?_, ih hp.2⟩
        rcases key_of_mem_insertSorted hc with rfl | hc
        · exact Std.OrientedCmp.lt_of_gt hgt
        · exact hp.1 c hc

def insert (k : α) (v : β) (m : SortedMap α β) : SortedMap α β :=
  ⟨insertSorted k v m.toList, pairwise_insertSorted k v m.sorted⟩

omit [Std.TransOrd α] in
theorem mem_keys_insertSorted [Std.LawfulEqOrd α] {k x : α} {v : β} {l : List (α × β)} :
    x ∈ (insertSorted k v l).map (·.1) ↔ x = k ∨ x ∈ l.map (·.1) := by
  induction l with
  | nil => simp [insertSorted]
  | cons p rest ih =>
      rw [insertSorted]
      split
      · simp
      · next heq =>
        have hk : k = p.1 := Std.LawfulEqCmp.eq_of_compare heq
        simp [hk]
      · rw [List.map_cons, List.mem_cons, ih, List.map_cons, List.mem_cons]
        exact or_left_comm

theorem mem_keys_insert [Std.LawfulEqOrd α] {k x : α} {v : β} {m : SortedMap α β} :
    x ∈ (m.insert k v).keys ↔ x = k ∨ x ∈ m.keys :=
  mem_keys_insertSorted

theorem mem_of_mem_insert {k : α} {v : β} {x : α × β} {m : SortedMap α β}
    (h : x ∈ (m.insert k v).toList) : x = (k, v) ∨ x ∈ m.toList :=
  key_of_mem_insertSorted h

omit [Std.TransOrd α] in
theorem mem_of_get? [DecidableEq α] {k : α} {v : β} {m : SortedMap α β}
    (h : m.get? k = some v) : (k, v) ∈ m.toList := by
  obtain ⟨p, hp, rfl⟩ := Option.map_eq_some_iff.1 h
  have hk : p.1 = k := by simpa using List.find?_some hp
  exact hk ▸ List.mem_of_find?_eq_some hp

omit [Std.TransOrd α] in
theorem find?_insertSorted [DecidableEq α] [Std.LawfulEqOrd α] {k x : α} {v : β}
    {l : List (α × β)} :
    (insertSorted k v l).find? (·.1 = x) = if x = k then some (k, v) else l.find? (·.1 = x) := by
  induction l with
  | nil =>
      rw [insertSorted, List.find?_cons]
      by_cases hx : x = k
      · simp [hx]
      · simp [hx, Ne.symm hx]
  | cons p rest ih =>
      rw [insertSorted]
      by_cases hx : x = k
      · subst hx
        rw [if_pos rfl] at ih ⊢
        split
        · simp
        · simp
        · next hgt =>
          have hne : ¬ p.1 = x := fun heq => by simp [heq] at hgt
          rw [List.find?_cons, ih]
          simp [hne]
      · rw [if_neg hx] at ih ⊢
        split
        · rw [List.find?_cons]
          simp [Ne.symm hx]
        · next heq =>
          have hk : k = p.1 := Std.LawfulEqCmp.eq_of_compare heq
          rw [List.find?_cons, List.find?_cons]
          simp [Ne.symm hx, ← hk]
        · rw [List.find?_cons, List.find?_cons, ih]

theorem get?_insert [DecidableEq α] [Std.LawfulEqOrd α] {k x : α} {v : β} {m : SortedMap α β} :
    (m.insert k v).get? x = if x = k then some v else m.get? x := by
  rw [get?, insert, find?_insertSorted]
  split
  · rfl
  · rfl

/-- Each key stands once. -/
theorem nodup_keys (m : SortedMap α β) : m.keys.Nodup := by
  refine List.pairwise_map.2 (m.sorted.imp fun {p q} hlt heq => ?_)
  have hself : compare q.1 q.1 = .eq := Std.ReflCmp.compare_self
  rw [heq, Before, hself] at hlt
  cases hlt

theorem get?_eq_some_iff [DecidableEq α] {k : α} {v : β} {m : SortedMap α β} :
    m.get? k = some v ↔ (k, v) ∈ m.toList := by
  refine ⟨mem_of_get?, fun h => ?_⟩
  obtain ⟨before, after, hlist⟩ := List.append_of_mem h
  have hsorted := m.sorted
  rw [hlist, List.pairwise_append] at hsorted
  have hself : compare k k = .eq := Std.ReflCmp.compare_self
  have hfound : m.toList.find? (·.1 = k) = some (k, v) := by
    refine List.find?_eq_some_iff_append.2 ⟨by simp, before, after, hlist, fun p hp => ?_⟩
    have hbefore : Before p.1 k := hsorted.2.2 p hp (k, v) List.mem_cons_self
    have hne : p.1 ≠ k := by
      rintro rfl
      rw [Before, hself] at hbefore
      cases hbefore
    simpa using hne
  rw [get?, hfound]
  rfl

/-- Two tables are the same if they have the same value at each key. -/
theorem ext_get? [DecidableEq α] {s t : SortedMap α β} (h : ∀ k, s.get? k = t.get? k) : s = t := by
  have hnodup : ∀ m : SortedMap α β, m.toList.Nodup := fun m =>
    (List.pairwise_map.1 m.nodup_keys).imp fun hne heq => hne (congrArg _ heq)
  have hnot : ∀ p q : α × β, Before p.1 q.1 → ¬ Before q.1 p.1 := fun p q hpq hqp => by
    have hgt := Std.OrientedCmp.gt_of_lt hpq
    rw [Before, hgt] at hqp
    cases hqp
  refine ext_toList (List.Perm.eq_of_pairwise (fun p q _ _ hpq hqp => absurd hqp (hnot p q hpq))
    s.sorted t.sorted ?_)
  refine (List.perm_ext_iff_of_nodup (hnodup s) (hnodup t)).2 fun p => ?_
  rw [← get?_eq_some_iff, ← get?_eq_some_iff, h]

/-- The table of a list of entries. -/
def ofList (l : List (α × β)) : SortedMap α β :=
  l.foldl (fun m p => m.insert p.1 p.2) empty

omit [Std.TransOrd α] in
theorem insertSorted_of_before [Std.OrientedOrd α] {k : α} {v : β} {l : List (α × β)}
    (h : ∀ p ∈ l, Before p.1 k) : insertSorted k v l = l ++ [(k, v)] := by
  induction l with
  | nil => rfl
  | cons p rest ih =>
      have hgt : compare k p.1 = .gt := Std.OrientedCmp.gt_of_lt (h p List.mem_cons_self)
      have hrest := ih fun p' hp' => h p' (List.mem_cons_of_mem _ hp')
      simp only [insertSorted, hgt, hrest, List.cons_append]

theorem toList_foldl_insert {l : List (α × β)} {m : SortedMap α β}
    (h : (m.toList ++ l).Pairwise fun p q => Before p.1 q.1) :
    (l.foldl (fun m p => m.insert p.1 p.2) m).toList = m.toList ++ l := by
  induction l generalizing m with
  | nil => exact (List.append_nil _).symm
  | cons p rest ih =>
      have hbefore : ∀ q ∈ m.toList, Before q.1 p.1 := fun q hq =>
        (List.pairwise_append.1 h).2.2 q hq p List.mem_cons_self
      have hinsert : (m.insert p.1 p.2).toList = m.toList ++ [p] := insertSorted_of_before hbefore
      have hsorted : ((m.insert p.1 p.2).toList ++ rest).Pairwise fun p q => Before p.1 q.1 := by
        rw [hinsert, List.append_assoc]
        exact h
      rw [List.foldl_cons, ih hsorted, hinsert, List.append_assoc]
      rfl

/-- A table is the table of its entries as they are listed. -/
theorem ofList_toList (m : SortedMap α β) : ofList m.toList = m := by
  have hsorted : ((empty : SortedMap α β).toList ++ m.toList).Pairwise
      fun p q => Before p.1 q.1 := m.sorted
  exact ext_toList (toList_foldl_insert hsorted)

omit [Std.TransOrd α] in
/-- The table with every value changed. -/
def map {γ : Type} (f : α → β → γ) (m : SortedMap α β) : SortedMap α γ :=
  ⟨m.toList.map fun p => (p.1, f p.1 p.2), List.pairwise_map.2 m.sorted⟩

end SortedMap

end CaseAccess
