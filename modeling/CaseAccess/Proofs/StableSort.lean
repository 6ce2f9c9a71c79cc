import CaseAccess.Sorted.Set
import Mathlib.Order.Basic

/-!
# What is found in a sorted list

Statuses are looked up in a list that was sorted by their numbers, and services in one that
was sorted by the lengths of their roots. Both take the first entry that fits, so of the
entries that fit it is a least one; and as sorting keeps the order of equals, of the least ones
it is the one that stood first before sorting. `find?_mergeSort` says this of the list that was
sorted alone.
-/

namespace CaseAccess

variable {α : Type} {p : α → Bool} {l : List α} {a : α}

/-- What is found is the first of what is looked for. -/
theorem find?_eq_some_iff_getElem? :
    l.find? p = some a ↔
      ∃ i : Nat, l[i]? = some a ∧ p a = true ∧
        ∀ (j : Nat) b, l[j]? = some b → p b = true → i ≤ j := by
  rw [List.find?_eq_some_iff_getElem]
  constructor
  · rintro ⟨ha, i, hi, rfl, hfirst⟩
    refine ⟨i, List.getElem?_eq_getElem hi, ha, fun j b hj hb => ?_⟩
    by_contra hlt
    obtain ⟨hlength, rfl⟩ := List.getElem?_eq_some_iff.1 hj
    have hnot := hfirst j (by omega)
    rw [hb] at hnot
    cases hnot
  · rintro ⟨i, hi, ha, hfirst⟩
    obtain ⟨hlength, rfl⟩ := List.getElem?_eq_some_iff.1 hi
    refine ⟨ha, i, hlength, rfl, fun j hj => ?_⟩
    rw [Bool.not_eq_true', Bool.eq_false_iff]
    intro hb
    have hle := hfirst j _ (List.getElem?_eq_getElem (by omega)) hb
    omega

variable {le : α → α → Bool}

/-- Entries that are in order already stay as they are. -/
theorem filter_mergeSort (htrans : ∀ a b c, le a b = true → le b c = true → le a c = true)
    (htotal : ∀ a b, (le a b || le b a) = true) {q : α → Bool}
    (h : ∀ a b, q a = true → q b = true → le a b = true) :
    (l.mergeSort le).filter q = l.filter q := by
  have hordered : (l.filter q).Pairwise fun a b => le a b = true :=
    List.pairwise_of_forall_mem_list fun a ha b hb =>
      h a b (List.mem_filter.1 ha).2 (List.mem_filter.1 hb).2
  have hkept : (l.filter q).Sublist (l.mergeSort le) :=
    List.sublist_mergeSort htrans htotal hordered List.filter_sublist
  have hsub := hkept.filter q
  rw [List.filter_filter] at hsub
  simp only [Bool.and_self] at hsub
  exact (hsub.eq_of_length ((List.mergeSort_perm l le).filter _).length_eq.symm).symm

/-- What is found after sorting is a least one of what is looked for, and of the least ones it
was the first. -/
theorem of_find?_mergeSort (htrans : ∀ a b c, le a b = true → le b c = true → le a c = true)
    (htotal : ∀ a b, (le a b || le b a) = true) (h : (l.mergeSort le).find? p = some a) :
    ∃ i : Nat, l[i]? = some a ∧ p a = true ∧
      ∀ (j : Nat) b, l[j]? = some b → p b = true → le a b = true ∧ (le b a = true → i ≤ j) := by
  obtain ⟨hp, before, after, hsorted, hbefore⟩ := List.find?_eq_some_iff_append.1 h
  have hpairs := List.pairwise_mergeSort htrans htotal l
  rw [hsorted, List.pairwise_append, List.pairwise_cons] at hpairs
  have hself : le a a = true := by simpa using htotal a a
  have hleast : ∀ b ∈ l, p b = true → le a b = true := by
    intro b hb hpb
    have hmem : b ∈ before ++ a :: after := hsorted ▸ List.mem_mergeSort.2 hb
    rcases List.mem_append.1 hmem with hmem | hmem
    · have hnot := hbefore b hmem
      rw [hpb] at hnot
      cases hnot
    · rcases List.mem_cons.1 hmem with rfl | hmem
      · exact hself
      · exact hpairs.2.1.1 b hmem
  -- Among its equals the entry is found in the list as it was.
  have hequals : ∀ b c, (le b a && le a b) = true → (le c a && le a c) = true → le b c = true := by
    intro b c hb hc
    rw [Bool.and_eq_true] at hb hc
    exact htrans b a c hb.1 hc.2
  have hfirst : l.find? (fun b => decide ((le b a && le a b) = true ∧ p b = true)) = some a := by
    rw [← List.find?_filter, ← filter_mergeSort htrans htotal hequals, List.find?_filter,
      List.find?_eq_some_iff_append]
    refine ⟨by simp [hself, hp], before, after, hsorted, fun b hb => ?_⟩
    have hnot := hbefore b hb
    rw [Bool.not_eq_true', decide_eq_false_iff_not]
    rintro ⟨-, hpb⟩
    rw [hpb] at hnot
    cases hnot
  obtain ⟨i, hi, -, hleft⟩ := find?_eq_some_iff_getElem?.1 hfirst
  refine ⟨i, hi, hp, fun j b hj hpb => ?_⟩
  have hab := hleast b (List.mem_of_getElem? hj) hpb
  exact ⟨hab, fun hba => hleft j b hj (by simp [hab, hba, hpb])⟩

/-- An entry is found after sorting just if it is a least one of what is looked for, and the
first of the least ones. -/
theorem find?_mergeSort (htrans : ∀ a b c, le a b = true → le b c = true → le a c = true)
    (htotal : ∀ a b, (le a b || le b a) = true) :
    (l.mergeSort le).find? p = some a ↔
      ∃ i : Nat, l[i]? = some a ∧ p a = true ∧
        ∀ (j : Nat) b, l[j]? = some b → p b = true →
          le a b = true ∧ (le b a = true → i ≤ j) := by
  refine ⟨of_find?_mergeSort htrans htotal, ?_⟩
  rintro ⟨i, hi, hp, hleast⟩
  have hfound : ((l.mergeSort le).find? p).isSome = true :=
    List.find?_isSome.2 ⟨a, List.mem_mergeSort.2 (List.mem_of_getElem? hi), hp⟩
  obtain ⟨b, hb⟩ := Option.isSome_iff_exists.1 hfound
  obtain ⟨j, hj, hpb, hleast'⟩ := of_find?_mergeSort htrans htotal hb
  -- Each of the two is least beside the other, so they stand at one place.
  obtain ⟨hab, hij⟩ := hleast j b hj hpb
  obtain ⟨hba, hji⟩ := hleast' i a hi hp
  have hplace : i = j := Nat.le_antisymm (hij hba) (hji hab)
  rw [hb, ← hj, ← hplace, hi]

end CaseAccess
