import CaseAccess.Operation
import Mathlib.Data.List.Forall2
import Mathlib.Logic.Relation
import Mathlib.Order.Defs.Unbundled

/-!
# What an operation does to an installation

An operation has two sides: how it ends, and what it leaves behind. Most claims about
operations are about the second side alone and hold however the operation ends: it
keeps the store, it only adds to a history, it publishes nothing. Such a claim is a
relation between the installation before and the one after, and `Moves R` says that
an operation goes along `R` from wherever it is started.

When `R` is reflexive and transitive, `Moves R` passes through sequences, loops and
branches, so a composed operation needs an argument only for the steps that change
something. A step that changes what `R` speaks about needs to know how the steps
before it ended; for that the second half of this file opens a sequence at its first
step.

What other catalogs answer belongs to the context, so a relation that speaks of what
types resolve to depends on the context too. `MovesIn` is for these, and `Moves` is the
case of it in which the context does not matter.
-/

namespace CaseAccess

/-- A computation in steps that gave a value, opened at its first step. -/
theorem except_of_bind_ok {ε α β : Type} {x : Except ε α} {f : α → Except ε β} {b : β}
    (h : (x >>= f) = .ok b) : ∃ a, x = .ok a ∧ f a = .ok b := by
  cases x with
  | error e => cases h
  | ok a => exact ⟨a, rfl, h⟩

theorem except_bind_eq_ok {ε α β : Type} {x : Except ε α} {f : α → Except ε β} {b : β} :
    (x >>= f) = .ok b ↔ ∃ a, x = .ok a ∧ f a = .ok b := by
  refine ⟨except_of_bind_ok, ?_⟩
  rintro ⟨a, rfl, h⟩
  exact h

theorem except_pure_eq_ok {ε α : Type} {a b : α} : (pure a : Except ε α) = .ok b ↔ a = b :=
  ⟨Except.ok.inj, congrArg Except.ok⟩

theorem except_of_bind_error {ε α β : Type} {x : Except ε α} {f : α → Except ε β} {e : ε}
    (h : (x >>= f) = .error e) : x = .error e ∨ ∃ a, x = .ok a ∧ f a = .error e := by
  cases x with
  | error e' =>
      cases h
      exact .inl rfl
  | ok a => exact .inr ⟨a, rfl, h⟩

theorem except_of_map_ok {ε α β : Type} {x : Except ε α} {f : α → β} {b : β}
    (h : x.map f = .ok b) : ∃ a, x = .ok a ∧ f a = b := by
  cases x with
  | error e => cases h
  | ok a => exact ⟨a, rfl, Except.ok.inj h⟩

theorem except_ok_bind {ε α β : Type} (a : α) (f : α → Except ε β) :
    (Except.ok a >>= f) = f a := rfl

theorem except_of_refusal_ok {ε α : Type} {p : Prop} [Decidable p] {e : ε} {x : Except ε α}
    {a : α} (h : (if p then (throw e : Except ε PUnit) >>= fun _ => x else x) = .ok a) :
    ¬ p ∧ x = .ok a := by
  split at h
  · cases h
  · next hp => exact ⟨hp, h⟩

/-! ## Lists read entry by entry -/

section Entries

variable {ε α β : Type}

/-- What stands at a place of one of two lists stands beside something in the other. -/
theorem forall₂_getElem?_left {R : α → β → Prop} {l : List α} {m : List β}
    (h : List.Forall₂ R l m) {i : Nat} {a : α} (ha : l[i]? = some a) :
    ∃ b, m[i]? = some b ∧ R a b := by
  induction h generalizing i with
  | nil => cases ha
  | cons hr _ ih =>
      cases i with
      | zero =>
          cases ha
          exact ⟨_, rfl, hr⟩
      | succ i => exact ih ha

theorem forall₂_getElem?_right {R : α → β → Prop} {l : List α} {m : List β}
    (h : List.Forall₂ R l m) {i : Nat} {b : β} (hb : m[i]? = some b) :
    ∃ a, l[i]? = some a ∧ R a b :=
  forall₂_getElem?_left h.flip hb

theorem forall₂_mem_left {R : α → β → Prop} {l : List α} {m : List β}
    (h : List.Forall₂ R l m) {a : α} (ha : a ∈ l) : ∃ b ∈ m, R a b := by
  obtain ⟨i, hi⟩ := List.mem_iff_getElem?.1 ha
  obtain ⟨b, hb, hab⟩ := forall₂_getElem?_left h hi
  exact ⟨b, List.mem_of_getElem? hb, hab⟩

theorem forall₂_mem_right {R : α → β → Prop} {l : List α} {m : List β}
    (h : List.Forall₂ R l m) {b : β} (hb : b ∈ m) : ∃ a ∈ l, R a b :=
  forall₂_mem_left h.flip hb

theorem exists_forall₂_iff {R : α → β → Prop} {l : List α} :
    (∃ m, List.Forall₂ R l m) ↔ ∀ a ∈ l, ∃ b, R a b := by
  constructor
  · rintro ⟨m, h⟩ a ha
    obtain ⟨b, -, hab⟩ := forall₂_mem_left h ha
    exact ⟨b, hab⟩
  · intro h
    induction l with
    | nil => exact ⟨[], .nil⟩
    | cons a rest ih =>
        obtain ⟨b, hb⟩ := h a List.mem_cons_self
        obtain ⟨m, hm⟩ := ih fun x hx => h x (List.mem_cons_of_mem _ hx)
        exact ⟨b :: m, .cons hb hm⟩

theorem mapM_eq_ok_iff {f : α → Except ε β} {l : List α} {bs : List β} :
    l.mapM f = .ok bs ↔ List.Forall₂ (fun a b => f a = .ok b) l bs := by
  constructor
  · intro h
    induction l generalizing bs with
    | nil =>
        cases h
        exact .nil
    | cons a rest ih =>
        rw [List.mapM_cons] at h
        obtain ⟨b, hb, h⟩ := except_of_bind_ok h
        obtain ⟨tail, htail, h⟩ := except_of_bind_ok h
        cases h
        exact .cons hb (ih htail)
  · intro h
    induction h with
    | nil => rfl
    | cons hb _ ih =>
        rw [List.mapM_cons, hb, ih]
        rfl

/-- What `mapM` gives in a list comes from a member. -/
theorem exists_of_mapM_ok {f : α → Except ε β} {l : List α} {bs : List β}
    (h : l.mapM f = .ok bs) {b : β} (hb : b ∈ bs) : ∃ a ∈ l, f a = .ok b :=
  forall₂_mem_right (mapM_eq_ok_iff.1 h) hb

theorem mem_of_mapM_ok {f : α → Except ε β} {l : List α} {bs : List β}
    (h : l.mapM f = .ok bs) {a : α} (ha : a ∈ l) : ∃ b ∈ bs, f a = .ok b :=
  forall₂_mem_left (mapM_eq_ok_iff.1 h) ha

theorem exists_mapM_ok_iff {f : α → Except ε β} {l : List α} :
    (∃ bs, l.mapM f = .ok bs) ↔ ∀ a ∈ l, ∃ b, f a = .ok b := by
  simp only [mapM_eq_ok_iff, exists_forall₂_iff]

end Entries

namespace Operation

variable {α β : Type}

/-! ## Operations in sequence -/

theorem bind_apply (m : Operation α) (f : α → Operation β) (c : Context) (i : Installation) :
    (m >>= f) c i =
      match m c i with
      | (.ok a, j) => f a c j
      | (.error e, j) => (.error e, j) := rfl

theorem bind_of_ok {m : Operation α} {f : α → Operation β} {c : Context} {i j : Installation}
    {a : α} (h : m c i = (.ok a, j)) : (m >>= f) c i = f a c j := by
  rw [bind_apply, h]

theorem bind_context (f : Context → Operation α) (c : Context) (i : Installation) :
    (context >>= f) c i = f c c i := rfl

instance : LawfulMonad Operation := LawfulMonad.mk' Operation
  (by
    intro α m
    funext c i
    show (m >>= pure) c i = m c i
    rw [bind_apply]
    split
    · next h => exact h.symm
    · next h => exact h.symm)
  (fun _ _ => rfl)
  (by
    intro α β γ m f g
    funext c i
    rw [bind_apply (m >>= f), bind_apply m f, bind_apply m]
    rcases m c i with ⟨a | e, j⟩
    · rfl
    · rfl)

/-- Wherever the operation is started, the installation that it leaves is related to
the one that it found. -/
def Moves (R : Installation → Installation → Prop) (m : Operation α) : Prop :=
  ∀ c i, R i (m c i).2

/-- The same for a relation that depends on the context. -/
def MovesIn (R : Context → Installation → Installation → Prop) (m : Operation α) : Prop :=
  ∀ c i, R c i (m c i).2

section MovesIn

variable {R : Context → Installation → Installation → Prop}

theorem MovesIn.of_moves {m : Operation α} (h : ∀ c, Moves (R c) m) : MovesIn R m :=
  fun c i => h c c i

theorem movesIn_attempt {m : Operation α} (hm : MovesIn R m) : MovesIn R (attempt m) :=
  fun c i => hm c i

variable [∀ c, IsPreorder Installation (R c)]

theorem movesIn_bind {m : Operation α} {f : α → Operation β} (hm : MovesIn R m)
    (hf : ∀ a, MovesIn R (f a)) : MovesIn R (m >>= f) := by
  intro c i
  have h := hm c i
  rw [bind_apply]
  split
  · next a j hj =>
      rw [hj] at h
      exact trans_of (R c) h (hf a c j)
  · next e j hj =>
      rw [hj] at h
      exact h

theorem movesIn_pure (a : α) : MovesIn R (pure a) := fun c i => refl_of (R c) i

theorem movesIn_mapM {f : α → Operation β} (hf : ∀ a, MovesIn R (f a)) (l : List α) :
    MovesIn R (l.mapM f) := by
  induction l with
  | nil => exact movesIn_pure []
  | cons a rest ih =>
      rw [List.mapM_cons]
      exact movesIn_bind (hf a) fun _ => movesIn_bind ih fun _ => movesIn_pure _

theorem movesIn_optionMapM {f : α → Operation β} (hf : ∀ a, MovesIn R (f a)) (o : Option α) :
    MovesIn R (o.mapM f) := by
  cases o with
  | none => exact movesIn_pure none
  | some a => exact movesIn_bind (hf a) fun _ => movesIn_pure _

/-- An operation that is refused under a condition, and goes on otherwise. -/
theorem movesIn_refusal {p : Prop} [Decidable p] {e : ApiError} {m : Operation α}
    (h : MovesIn R m) : MovesIn R (if p then (do fail e; m) else m) := by
  split
  · exact movesIn_bind (fun c i => refl_of (R c) i) fun _ => h
  · exact h

end MovesIn

section Moves

variable {R : Installation → Installation → Prop}

theorem Moves.mono {Q : Installation → Installation → Prop} {m : Operation α}
    (h : Moves R m) (hRQ : ∀ i j, R i j → Q i j) : Moves Q m :=
  fun c i => hRQ _ _ (h c i)

/-! ## Steps that change something -/

theorem moves_changing {f : Store → Store} (h : ∀ i, R i { i with store := f i.store }) :
    Moves R (changing f) :=
  fun _ i => h i

theorem moves_changingWith {f : Store → α × Store}
    (h : ∀ i, R i { i with store := (f i.store).2 }) : Moves R (changingWith f) :=
  fun _ i => h i

theorem moves_changingCache {f : GrantCache → GrantCache}
    (h : ∀ i, R i { i with grantCache := f i.grantCache }) : Moves R (changingCache f) :=
  fun _ i => h i

theorem moves_publish {notifications : List Notification}
    (h : ∀ i, R i { i with outbox := i.outbox ++ notifications }) :
    Moves R (publish notifications) :=
  fun _ i => h i

/-- A transaction goes along what its operation goes along, if taking the store back
does too. -/
theorem moves_transaction {m : Operation α} (hm : Moves R m)
    (hback : ∀ i j, R i j → R i { j with store := i.store }) : Moves R (transaction m) := by
  intro c i
  have h := hm c i
  rw [transaction]
  split
  · next a t ht =>
      rw [ht] at h
      exact h
  · next e t ht =>
      rw [ht] at h
      exact hback i t h

/-! ## Steps that may fail

A step that fails changes nothing, so from here on a relation has to allow for that. -/

variable [IsPreorder Installation R]

theorem moves_changingOr {f : Store → Except StoreFault Store}
    (h : ∀ i s, f i.store = .ok s → R i { i with store := s }) : Moves R (changingOr f) := by
  intro c i
  simp only [changingOr]
  split
  · next s hs => exact h i s hs
  · exact refl i

theorem moves_changingWithOr {f : Store → Except StoreFault (α × Store)}
    (h : ∀ i a s, f i.store = .ok (a, s) → R i { i with store := s }) :
    Moves R (changingWithOr f) := by
  intro c i
  simp only [changingWithOr]
  split
  · next a s hs => exact h i a s hs
  · exact refl i

/-! ## Steps that change nothing -/

theorem moves_same {m : Operation α} (h : ∀ c i, (m c i).2 = i) : Moves R m := by
  intro c i
  rw [h c i]
  exact refl i

theorem moves_pure (a : α) : Moves R (pure a) := moves_same fun _ _ => rfl

theorem moves_fail (e : ApiError) : Moves R (fail e : Operation α) := moves_same fun _ _ => rfl

theorem moves_context : Moves R context := moves_same fun _ _ => rfl

theorem moves_reading (f : Store → α) : Moves R (reading f) := moves_same fun _ _ => rfl

theorem moves_ofExcept (x : Except ApiError α) : Moves R (ofExcept x) := by
  cases x with
  | ok a => exact moves_pure a
  | error e => exact moves_fail e

theorem moves_readingOr (f : Store → Except StoreFault α) : Moves R (readingOr f) := by
  refine moves_same fun c i => ?_
  simp only [readingOr]
  split <;> rfl

/-! ## Sequences and loops -/

theorem moves_bind {m : Operation α} {f : α → Operation β} (hm : Moves R m)
    (hf : ∀ a, Moves R (f a)) : Moves R (m >>= f) :=
  movesIn_bind (R := fun _ => R) hm hf

theorem moves_mapM {f : α → Operation β} (hf : ∀ a, Moves R (f a)) (l : List α) :
    Moves R (l.mapM f) :=
  movesIn_mapM (R := fun _ => R) hf l

theorem moves_refusal {p : Prop} [Decidable p] {e : ApiError} {m : Operation α}
    (h : Moves R m) : Moves R (if p then (do fail e; m) else m) :=
  movesIn_refusal (R := fun _ => R) h

theorem moves_forM {f : α → Operation PUnit} (hf : ∀ a, Moves R (f a)) (l : List α) :
    Moves R (l.forM f) := by
  induction l with
  | nil => exact moves_pure _
  | cons a rest ih =>
      show Moves R (f a >>= fun _ => rest.forM f)
      exact moves_bind (hf a) fun _ => ih

end Moves

/-! ## Opening a sequence

What is known of a sequence that ended well, or with an error, in terms of its first
step and the rest. -/

theorem of_bind_ok {m : Operation α} {f : α → Operation β} {c : Context} {i k : Installation}
    {b : β} (h : (m >>= f) c i = (.ok b, k)) :
    ∃ a j, m c i = (.ok a, j) ∧ f a c j = (.ok b, k) := by
  rw [bind_apply] at h
  split at h
  · next a j hj => exact ⟨a, j, hj, h⟩
  · next e j hj => cases h

theorem of_bind_error {m : Operation α} {f : α → Operation β} {c : Context}
    {i k : Installation} {e : ApiError} (h : (m >>= f) c i = (.error e, k)) :
    m c i = (.error e, k) ∨ ∃ a j, m c i = (.ok a, j) ∧ f a c j = (.error e, k) := by
  rw [bind_apply] at h
  split at h
  · next a j hj => exact .inr ⟨a, j, hj, h⟩
  · next e' j hj =>
      cases h
      exact .inl hj

/-- What a sequence did that ended well, when its first step goes along a relation. -/
theorem MovesIn.of_bind_ok {R : Context → Installation → Installation → Prop}
    {m : Operation α} {f : α → Operation β} (hm : MovesIn R m) {c : Context}
    {i k : Installation} {b : β} (h : (m >>= f) c i = (.ok b, k)) :
    ∃ a j, R c i j ∧ m c i = (.ok a, j) ∧ f a c j = (.ok b, k) := by
  obtain ⟨a, j, hj, hk⟩ := Operation.of_bind_ok h
  have hij := hm c i
  rw [hj] at hij
  exact ⟨a, j, hij, hj, hk⟩

theorem Moves.of_bind_ok {R : Installation → Installation → Prop} {m : Operation α}
    {f : α → Operation β} (hm : Moves R m) {c : Context} {i k : Installation} {b : β}
    (h : (m >>= f) c i = (.ok b, k)) :
    ∃ a j, R i j ∧ m c i = (.ok a, j) ∧ f a c j = (.ok b, k) :=
  MovesIn.of_bind_ok (R := fun _ => R) hm h

theorem of_refusal_ok {p : Prop} [Decidable p] {e : ApiError} {m : Operation α} {c : Context}
    {i j : Installation} {a : α} (h : (if p then (do fail e; m) else m) c i = (.ok a, j)) :
    ¬ p ∧ m c i = (.ok a, j) := by
  split at h
  · obtain ⟨_, _, hfail, _⟩ := of_bind_ok h
    cases hfail
  · next hp => exact ⟨hp, h⟩

theorem of_reading_ok {f : Store → α} {c : Context} {i j : Installation} {a : α}
    (h : reading f c i = (.ok a, j)) : f i.store = a ∧ i = j := by
  cases h
  exact ⟨rfl, rfl⟩

theorem of_readingOr_ok {f : Store → Except StoreFault α} {c : Context} {i j : Installation}
    {a : α} (h : readingOr f c i = (.ok a, j)) : f i.store = .ok a ∧ i = j := by
  simp only [readingOr] at h
  split at h
  · next b hb =>
      cases h
      exact ⟨hb, rfl⟩
  · cases h

theorem of_optionMapM_ok {f : α → Operation β} {o : Option α} {c : Context} {i j : Installation}
    {p : Option β} (h : o.mapM f c i = (.ok p, j)) :
    (o = none ∧ p = none ∧ i = j) ∨
      ∃ a b, o = some a ∧ p = some b ∧ f a c i = (.ok b, j) := by
  cases o with
  | none =>
      cases h
      exact .inl ⟨rfl, rfl, rfl⟩
  | some a =>
      obtain ⟨b, j', hb, h⟩ := of_bind_ok (m := f a) (f := fun b => pure (some b)) h
      cases h
      exact .inr ⟨a, b, rfl, rfl, hb⟩

theorem of_ofExcept_ok {x : Except ApiError α} {c : Context} {i j : Installation} {a : α}
    (h : ofExcept x c i = (.ok a, j)) : x = .ok a ∧ i = j := by
  cases x with
  | error e => cases h
  | ok b =>
      cases h
      exact ⟨rfl, rfl⟩

theorem of_changingOr_ok {f : Store → Except StoreFault Store} {c : Context}
    {i j : Installation} (h : changingOr f c i = (.ok (), j)) :
    ∃ s, f i.store = .ok s ∧ j = { i with store := s } := by
  simp only [changingOr] at h
  split at h
  · next s hs =>
      cases h
      exact ⟨s, hs, rfl⟩
  · cases h

theorem of_changingWithOr_ok {f : Store → Except StoreFault (α × Store)} {c : Context}
    {i j : Installation} {a : α} (h : changingWithOr f c i = (.ok a, j)) :
    ∃ s, f i.store = .ok (a, s) ∧ j = { i with store := s } := by
  simp only [changingWithOr] at h
  split at h
  · next b s hs =>
      cases h
      exact ⟨s, hs, rfl⟩
  · cases h

/-- A loop of changes that give nothing is one change. -/
theorem forM_changing (f : α → Store → Store) (l : List α) (c : Context) (i : Installation) :
    (l.forM fun a => changing (f a)) c i =
      (.ok (), { i with store := l.foldl (fun s a => f a s) i.store }) := by
  induction l generalizing i with
  | nil => rfl
  | cons a rest ih =>
      show (changing (f a) >>= fun _ => rest.forM fun a => changing (f a)) c i = _
      have ha : changing (f a) c i = (.ok (), { i with store := f a i.store }) := rfl
      rw [bind_of_ok ha, ih]
      rfl

/-- What holds between every element and what it gave holds between the lists. -/
theorem map_of_mapM_ok {γ : Type} {f : α → Operation β} {g : β → γ} {h : α → γ}
    (hf : ∀ a c i b j, f a c i = (.ok b, j) → g b = h a) {l : List α} {c : Context}
    {i j : Installation} {bs : List β} (hl : l.mapM f c i = (.ok bs, j)) :
    bs.map g = l.map h := by
  induction l generalizing i bs with
  | nil =>
      cases hl
      rfl
  | cons a rest ih =>
      rw [List.mapM_cons] at hl
      obtain ⟨b, i₁, hb, hl⟩ := of_bind_ok hl
      obtain ⟨rest', i₂, hrest, hl⟩ := of_bind_ok hl
      cases hl
      rw [List.map_cons, List.map_cons, hf a c i b i₁ hb, ih hrest]

/-- A transaction that ended well is the operation itself. -/
theorem of_transaction_ok {m : Operation α} {c : Context} {i j : Installation} {a : α}
    (h : transaction m c i = (.ok a, j)) : m c i = (.ok a, j) := by
  simp only [transaction] at h
  split at h
  · next b t ht =>
      cases h
      exact ht
  · next e t ht => cases h

end Operation

end CaseAccess
