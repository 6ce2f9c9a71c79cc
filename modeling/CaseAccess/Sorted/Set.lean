/-!
# Finite sets in sorted form

A set is the list of its members in increasing order, so a set has one form, two
sets with the same members are equal, and the members can be shown in order
without sorting them again. `insert` finds the place of a new member and leaves a
member that is already there alone.
-/

namespace CaseAccess

/-- `a` stands before `b`. -/
abbrev Before {α : Type} [Ord α] (a b : α) : Prop := compare a b = .lt

/-- The members of a finite set, in increasing order. -/
structure SortedSet (α : Type) [Ord α] where
  toList : List α
  sorted : toList.Pairwise Before

namespace SortedSet

variable {α : Type} [Ord α]

theorem ext_toList {s t : SortedSet α} (h : s.toList = t.toList) : s = t := by
  cases s; cases t; cases h; rfl

instance [DecidableEq α] : DecidableEq (SortedSet α) := fun s t =>
  if h : s.toList = t.toList then isTrue (ext_toList h)
  else isFalse fun e => h (e ▸ rfl)

instance [Repr α] : Repr (SortedSet α) := ⟨fun s n => reprPrec s.toList n⟩

instance : Membership α (SortedSet α) := ⟨fun s a => a ∈ s.toList⟩

theorem mem_toList {a : α} {s : SortedSet α} : a ∈ s.toList ↔ a ∈ s := Iff.rfl

instance [DecidableEq α] (a : α) (s : SortedSet α) : Decidable (a ∈ s) :=
  inferInstanceAs (Decidable (a ∈ s.toList))

def empty : SortedSet α := ⟨[], .nil⟩

instance : EmptyCollection (SortedSet α) := ⟨empty⟩
instance : Inhabited (SortedSet α) := ⟨empty⟩

def isEmpty (s : SortedSet α) : Bool := s.toList.isEmpty

def size (s : SortedSet α) : Nat := s.toList.length

/-- Puts `a` into its place in a sorted list that may hold it already. -/
def insertSorted (a : α) : List α → List α
  | [] => [a]
  | b :: rest =>
      match compare a b with
      | .lt => a :: b :: rest
      | .eq => b :: rest
      | .gt => b :: insertSorted a rest

theorem mem_of_mem_insertSorted {a x : α} {l : List α} (h : x ∈ insertSorted a l) :
    x = a ∨ x ∈ l := by
  induction l with
  | nil => simpa [insertSorted] using h
  | cons b rest ih =>
      rw [insertSorted] at h
      split at h
      · simpa using h
      · exact .inr h
      · rcases List.mem_cons.1 h with rfl | h
        · exact .inr (by simp)
        · exact (ih h).imp id (List.mem_cons_of_mem _)

variable [Std.TransOrd α]

theorem pairwise_insertSorted (a : α) {l : List α} (h : l.Pairwise Before) :
    (insertSorted a l).Pairwise Before := by
  induction l with
  | nil => simp [insertSorted]
  | cons b rest ih =>
      have hb := List.pairwise_cons.1 h
      rw [insertSorted]
      split
      · next hlt =>
        refine List.pairwise_cons.2 ⟨fun c hc => ?_, h⟩
        rcases List.mem_cons.1 hc with rfl | hc
        · exact hlt
        · exact Std.TransCmp.lt_trans hlt (hb.1 c hc)
      · exact h
      · next hgt =>
        refine List.pairwise_cons.2 ⟨fun c hc => ?_, ih hb.2⟩
        rcases mem_of_mem_insertSorted hc with rfl | hc
        · exact Std.OrientedCmp.lt_of_gt hgt
        · exact hb.1 c hc

def insert (a : α) (s : SortedSet α) : SortedSet α :=
  ⟨insertSorted a s.toList, pairwise_insertSorted a s.sorted⟩

/-- Each member stands once. -/
theorem nodup_toList (s : SortedSet α) : s.toList.Nodup := by
  refine s.sorted.imp fun {a b} hlt heq => ?_
  have hself : compare a a = .eq := Std.ReflCmp.compare_self
  rw [← heq, Before, hself] at hlt
  cases hlt

/-- Two sets are the same if they have the same members. -/
theorem eq_of_mem_iff {s t : SortedSet α} (h : ∀ a, a ∈ s ↔ a ∈ t) : s = t := by
  have hnot : ∀ a b : α, Before a b → ¬ Before b a := fun a b hab hba => by
    have hgt := Std.OrientedCmp.gt_of_lt hab
    rw [Before, hgt] at hba
    cases hba
  refine ext_toList (List.Perm.eq_of_pairwise (fun a b _ _ hab hba => absurd hba (hnot a b hab))
    s.sorted t.sorted ?_)
  exact (List.perm_ext_iff_of_nodup s.nodup_toList t.nodup_toList).2 h

/-- The set of the members of a list. -/
def ofList (l : List α) : SortedSet α :=
  l.foldl (fun s a => s.insert a) empty

theorem insertSorted_of_before {a : α} {l : List α} (h : ∀ b ∈ l, Before b a) :
    insertSorted a l = l ++ [a] := by
  induction l with
  | nil => rfl
  | cons b rest ih =>
      have hgt : compare a b = .gt := Std.OrientedCmp.gt_of_lt (h b List.mem_cons_self)
      have hrest := ih fun b' hb' => h b' (List.mem_cons_of_mem _ hb')
      simp only [insertSorted, hgt, hrest, List.cons_append]

theorem toList_foldl_insert {l : List α} {s : SortedSet α}
    (h : (s.toList ++ l).Pairwise Before) :
    (l.foldl (fun s a => s.insert a) s).toList = s.toList ++ l := by
  induction l generalizing s with
  | nil => exact (List.append_nil _).symm
  | cons a rest ih =>
      have hbefore : ∀ b ∈ s.toList, Before b a := fun b hb =>
        (List.pairwise_append.1 h).2.2 b hb a List.mem_cons_self
      have hinsert : (s.insert a).toList = s.toList ++ [a] := insertSorted_of_before hbefore
      have hsorted : ((s.insert a).toList ++ rest).Pairwise Before := by
        rw [hinsert, List.append_assoc]
        exact h
      rw [List.foldl_cons, ih hsorted, hinsert, List.append_assoc]
      rfl

/-- A set is the set of its members as they are listed. -/
theorem ofList_toList (s : SortedSet α) : ofList s.toList = s := by
  have hsorted : ((empty : SortedSet α).toList ++ s.toList).Pairwise Before := s.sorted
  exact ext_toList (toList_foldl_insert hsorted)

def union (s t : SortedSet α) : SortedSet α :=
  t.toList.foldl (fun s a => s.insert a) s

instance : Union (SortedSet α) := ⟨union⟩

/-- Whether every member of `s` is one of `t`. -/
def isSubset [DecidableEq α] (s t : SortedSet α) : Bool :=
  s.toList.all (· ∈ t.toList)

section Members

variable [Std.LawfulEqOrd α]

omit [Std.TransOrd α] in
theorem mem_insertSorted {a x : α} {l : List α} : x ∈ insertSorted a l ↔ x = a ∨ x ∈ l := by
  refine ⟨mem_of_mem_insertSorted, fun h => ?_⟩
  induction l with
  | nil => simpa [insertSorted] using h
  | cons b rest ih =>
      rw [insertSorted]
      split
      · simpa using h
      · next heq =>
        have : a = b := Std.LawfulEqCmp.eq_of_compare heq
        subst this
        simpa using h
      · rcases h with rfl | h
        · exact List.mem_cons_of_mem _ (ih (.inl rfl))
        · rcases List.mem_cons.1 h with rfl | h
          · simp
          · exact List.mem_cons_of_mem _ (ih (.inr h))

@[simp] theorem mem_insert {a x : α} {s : SortedSet α} : x ∈ s.insert a ↔ x = a ∨ x ∈ s :=
  mem_insertSorted

theorem mem_foldl_insert {x : α} {l : List α} {s : SortedSet α} :
    x ∈ l.foldl (fun s a => s.insert a) s ↔ x ∈ s ∨ x ∈ l := by
  induction l generalizing s with
  | nil => simp
  | cons a rest ih => simp [ih, or_assoc, or_left_comm]

omit [Std.TransOrd α] [Std.LawfulEqOrd α] in
@[simp] theorem not_mem_empty {x : α} : ¬ x ∈ (empty : SortedSet α) := by
  simp [← mem_toList, empty]

@[simp] theorem mem_ofList {x : α} {l : List α} : x ∈ ofList l ↔ x ∈ l := by
  simp [ofList, mem_foldl_insert]

@[simp] theorem mem_union {x : α} {s t : SortedSet α} : x ∈ s ∪ t ↔ x ∈ s ∨ x ∈ t :=
  mem_foldl_insert

end Members

omit [Std.TransOrd α] in
theorem isSubset_iff [DecidableEq α] {s t : SortedSet α} :
    s.isSubset t = true ↔ ∀ a ∈ s, a ∈ t := by
  simp [isSubset, ← mem_toList]

end SortedSet

end CaseAccess
