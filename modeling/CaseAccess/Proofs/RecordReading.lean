import CaseAccess.Json.Record

/-!
# Records are read from the parts of a document

A record may be written as an object or as an array. What it says under a name is then the
member of that name, or the item at the place that the layout gives to the name. `part?` is
either, and reading a record looks at nothing but these parts: the two forms do not differ
in what they can say.
-/

namespace CaseAccess.Json

theorem eq_integer_of_int64? {v : Json} {n : Int} (h : int64? v = some n) : v = .integer n := by
  cases v with
  | integer m =>
      simp only [int64?, integer?] at h
      split at h
      · cases h
        rfl
      · cases h
  | _ => cases h

/-! ## Lists -/

theorem mapM_eq_some {α β γ : Type} {f : α → γ} {read : γ → Option β} {g : α → β}
    (h : ∀ a, read (f a) = some (g a)) (l : List α) : (l.map f).mapM read = some (l.map g) := by
  induction l with
  | nil => rfl
  | cons a rest ih => simp [h, ih]

theorem list?_ofTexts (texts : List String) : list? text? (ofTexts texts) = some texts := by
  have hitem : ∀ text : String, text? (.string text) = some (id text) := fun _ => rfl
  have hread := mapM_eq_some hitem texts
  rwa [List.map_id] at hread

/-! ## Parts -/

/-- What a document says under a name, which as an array it says at that place. -/
def part? (name : String) (place : Nat) : Json → Option Json
  | .object members => members.lookup name
  | .array items => items[place]?
  | _ => none

namespace Layout

variable {α β : Type} {members : Members}

/-! ## Members -/

theorem read_map_eq_some {f : α → β} {l : Layout α} {b : β} :
    (f <$> l).read members = some b ↔ ∃ a, l.read members = some a ∧ f a = b :=
  Option.map_eq_some_iff

theorem read_seq_eq_some {f : Layout (α → β)} {l : Layout α} {b : β} :
    (f <*> l).read members = some b ↔
      ∃ g, f.read members = some g ∧ ∃ a, l.read members = some a ∧ g a = b := by
  show (f.read members).bind (fun g => (l.read members).bind fun a => some (g a)) = some b ↔ _
  simp only [Option.bind_eq_some_iff, Option.some.injEq]

theorem of_read_optional {name : String} {read : Reader α} {a : Option α}
    (hnull : read .null = none) (h : (optional name read).read members = some a) :
    a = (members.lookup name).bind read := by
  simp only [optional, defaulted] at h
  split at h
  · next v hv =>
      rw [hv, Option.bind_some]
      rw [optional?.eq_def] at h
      split at h
      · cases h
        exact hnull.symm
      · obtain ⟨b, hb, rfl⟩ := Option.map_eq_some_iff.1 h
        exact hb.symm
  · next hv =>
      cases h
      rw [hv]
      rfl

theorem read_map {f : α → β} {l : Layout α} {a : α} (h : l.read members = some a) :
    (f <$> l).read members = some (f a) :=
  read_map_eq_some.2 ⟨a, h, rfl⟩

theorem read_seq {f : Layout (α → β)} {l : Layout α} {g : α → β} {a : α}
    (hf : f.read members = some g) (h : l.read members = some a) :
    (f <*> l).read members = some (g a) :=
  read_seq_eq_some.2 ⟨g, hf, a, h, rfl⟩

theorem read_required {name : String} {read : Reader α} {a : α} {v : Json}
    (h : members.lookup name = some v) (hv : read v = some a) :
    (required name read).read members = some a := by
  simp only [required, h]
  exact hv

theorem read_nullable {name : String} {read : Reader α} {a : Option α} {v : Json}
    (h : members.lookup name = some v) (hv : optional? read v = some a) :
    (nullable name read).read members = some a := by
  simp only [nullable, h, hv]

theorem read_defaulted {name : String} {read : Reader α} {missing a : α} {v : Json}
    (h : members.lookup name = some v) (hv : read v = some a) :
    (defaulted name read missing).read members = some a := by
  simp only [defaulted, h, hv]

/-- A member that is left out without a value and given with one. -/
theorem read_optional {name : String} {read : Reader α} {write : α → Json} {a : Option α}
    (h : members.lookup name = a.map write)
    (hread : ∀ b, optional? read (write b) = some (some b)) :
    (optional name read).read members = some a := by
  cases a with
  | none => simp only [optional, defaulted, h, Option.map_none]
  | some b => exact read_defaulted h (hread b)

/-! ## Documents -/

/-- An object in which no member of the layout stands twice. -/
theorem decode_object {l : Layout α}
    (h : (l.slots.all fun slot => (members.filter (·.1 == slot.1)).length ≤ 1) = true) :
    l.decode (.object members) = l.read members :=
  if_pos h

/-- Items stand under the name of the slot at their place. -/
theorem lookup_ofItems? {slots : List (String × Presence)} {items : List Json} {name : String}
    {place : Nat} (h : ofItems? slots items = some members)
    (hplace : (slots.map (·.1)).idxOf? name = some place) :
    members.lookup name = items[place]? := by
  induction slots generalizing items members place with
  | nil => cases hplace
  | cons slot slots ih =>
      obtain ⟨first, presence⟩ := slot
      cases items with
      | nil =>
          simp only [ofItems?] at h
          split at h
          · cases h
            rfl
          · cases h
      | cons v items =>
          obtain ⟨rest, hrest, rfl⟩ := Option.map_eq_some_iff.1 h
          rw [List.map_cons, List.idxOf?_cons] at hplace
          rw [List.lookup_cons]
          by_cases hname : first = name
          · rw [if_pos (beq_iff_eq.2 hname)] at hplace
            cases hplace
            rw [hname, beq_self_eq_true]
            rfl
          · rw [if_neg (mt beq_iff_eq.1 hname)] at hplace
            obtain ⟨place, hfound, rfl⟩ := Option.map_eq_some_iff.1 hplace
            rw [beq_false_of_ne (Ne.symm hname), List.getElem?_cons_succ]
            exact ih hrest hfound

/-- A record is read from the parts of its document. -/
theorem of_decode {l : Layout α} {v : Json} {a : α} (h : l.decode v = some a) :
    ∃ members, l.read members = some a ∧
      ∀ name place, (l.slots.map (·.1)).idxOf? name = some place →
        members.lookup name = part? name place v := by
  cases v with
  | object members =>
      simp only [decode] at h
      split at h
      · exact ⟨members, h, fun _ _ _ => rfl⟩
      · cases h
  | array items =>
      obtain ⟨members, hmembers, hread⟩ := Option.bind_eq_some_iff.1 h
      exact ⟨members, hread, fun _ _ hplace => lookup_ofItems? hmembers hplace⟩
  | _ => cases h

end Layout

end CaseAccess.Json
