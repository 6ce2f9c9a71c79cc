import CaseAccess.Catalog.Service
import CaseAccess.Proofs.StableSort
import Mathlib.Data.List.Nodup

/-!
# The service that an address belongs to

The root of one service may lie below the root of another, and then an address begins with
both. It belongs to the service with the longer one, whose credentials are the ones to use.
The map finds it by its order alone: services with longer roots come first, and of what an
address begins with the first is taken.

Roots that one address begins with begin one another, so the longest of them is the one that
the others are a beginning of, whichever way lengths are counted. Only services of the same
root can stand in each other's place, and of these the one that is configured first is found.
-/

namespace CaseAccess

/-- Of the services whose root the address begins with, one with the longest root. -/
structure IsNearest (services : List ServiceConfig) (address : String) (s : ServiceConfig) :
    Prop where
  mem : s ∈ services
  begins : s.apiRoot.toList <+: address.toList
  longest : ∀ other ∈ services, other.apiRoot.toList <+: address.toList →
    other.apiRoot.toList <+: s.apiRoot.toList

/-- What begins a text and is no longer than another beginning of it begins that one. -/
theorem prefix_iff_utf8ByteSize_le {a b : String} {text : List Char} (ha : a.toList <+: text)
    (hb : b.toList <+: text) : a.toList <+: b.toList ↔ a.utf8ByteSize ≤ b.utf8ByteSize := by
  have happend : ∀ {x y : String}, x.toList <+: y.toList → ∃ rest, y = x ++ rest := by
    rintro x y ⟨rest, hrest⟩
    refine ⟨String.ofList rest, String.toList_inj.1 ?_⟩
    rw [String.toList_append, String.toList_ofList, hrest]
  constructor
  · intro h
    obtain ⟨rest, rfl⟩ := happend h
    rw [String.utf8ByteSize_append]
    omega
  · intro hle
    rcases List.prefix_or_prefix_of_prefix ha hb with h | h
    · exact h
    · obtain ⟨rest, rfl⟩ := happend h
      rw [String.utf8ByteSize_append] at hle
      have hempty : rest = "" := String.utf8ByteSize_eq_zero_iff.1 (by omega)
      simp [hempty]

theorem eq_of_prefixes {a b : String} (hab : a.toList <+: b.toList) (hba : b.toList <+: a.toList) :
    a = b :=
  String.toList_inj.1 (hab.eq_of_length (Nat.le_antisymm hab.length_le hba.length_le))

namespace IsNearest

variable {services others : List ServiceConfig} {address : String} {s t : ServiceConfig}

/-- Of services with different roots one is the nearest. -/
theorem unique (hs : IsNearest services address s)
    (hdistinct : (services.map (·.apiRoot)).Nodup) (ht : IsNearest services address t) : s = t := by
  have hst : s.apiRoot.toList <+: t.apiRoot.toList := ht.longest s hs.mem hs.begins
  have hts : t.apiRoot.toList <+: s.apiRoot.toList := hs.longest t ht.mem ht.begins
  exact List.inj_on_of_nodup_map hdistinct hs.mem ht.mem (eq_of_prefixes hst hts)

theorem perm (hs : IsNearest others address s) (h : others.Perm services) :
    IsNearest services address s where
  mem := h.mem_iff.1 hs.mem
  begins := hs.begins
  longest other hother := hs.longest other (h.mem_iff.2 hother)

end IsNearest

namespace ServiceMap

variable {services others : List ServiceConfig} {address : String} {s : ServiceConfig}

theorem size_trans (a b c : ServiceConfig)
    (hab : decide (b.apiRoot.utf8ByteSize ≤ a.apiRoot.utf8ByteSize) = true)
    (hbc : decide (c.apiRoot.utf8ByteSize ≤ b.apiRoot.utf8ByteSize) = true) :
    decide (c.apiRoot.utf8ByteSize ≤ a.apiRoot.utf8ByteSize) = true := by
  rw [decide_eq_true_eq] at hab hbc ⊢
  omega

theorem size_total (a b : ServiceConfig) :
    (decide (b.apiRoot.utf8ByteSize ≤ a.apiRoot.utf8ByteSize) ||
      decide (a.apiRoot.utf8ByteSize ≤ b.apiRoot.utf8ByteSize)) = true := by
  rw [Bool.or_eq_true, decide_eq_true_eq, decide_eq_true_eq]
  omega

/-- A service is found just if the address begins with a root. -/
theorem exists_find?_iff :
    (∃ s, (ofList services).find? address = some s) ↔
      ∃ s ∈ services, s.apiRoot.toList <+: address.toList := by
  rw [← Option.isSome_iff_exists, find?, List.find?_isSome]
  simp only [ofList, List.mem_mergeSort, List.isPrefixOf_iff_prefix]

/-- The service that is found is a nearest one, and the first of its root. -/
theorem find?_eq_some_iff :
    (ofList services).find? address = some s ↔
      IsNearest services address s ∧ ∃ i : Nat, services[i]? = some s ∧
        ∀ (j : Nat) other, services[j]? = some other → other.apiRoot = s.apiRoot → i ≤ j := by
  rw [find?, ofList, find?_mergeSort size_trans size_total]
  simp only [List.isPrefixOf_iff_prefix, decide_eq_true_eq]
  constructor
  · rintro ⟨i, hi, hbegins, hleast⟩
    refine ⟨⟨List.mem_of_getElem? hi, hbegins, fun other hother hprefix => ?_⟩, i, hi, ?_⟩
    · obtain ⟨j, hj⟩ := List.mem_iff_getElem?.1 hother
      exact (prefix_iff_utf8ByteSize_le hprefix hbegins).2 (hleast j other hj hprefix).1
    · intro j other hj hroot
      exact (hleast j other hj (hroot ▸ hbegins)).2 (Nat.le_of_eq (by rw [hroot]))
  · rintro ⟨⟨-, hbegins, hlongest⟩, i, hi, hfirst⟩
    refine ⟨i, hi, hbegins, fun j other hj hother => ?_⟩
    have hprefix := hlongest other (List.mem_of_getElem? hj) hother
    refine ⟨(prefix_iff_utf8ByteSize_le hother hbegins).1 hprefix, fun hge => hfirst j other hj ?_⟩
    -- A root that is as long as one that it begins is that one.
    have hback := (prefix_iff_utf8ByteSize_le hbegins hother).2 hge
    exact eq_of_prefixes hprefix hback

theorem find?_eq_some_iff_isNearest (hdistinct : (services.map (·.apiRoot)).Nodup) :
    (ofList services).find? address = some s ↔ IsNearest services address s := by
  refine ⟨fun h => (find?_eq_some_iff.1 h).1, fun h => ?_⟩
  obtain ⟨t, ht⟩ := exists_find?_iff.2 ⟨s, h.mem, h.begins⟩
  rw [ht, h.unique hdistinct (find?_eq_some_iff.1 ht).1]

/-- Where the roots are different, it makes no difference in which order they are configured. -/
theorem find?_perm (hdistinct : (services.map (·.apiRoot)).Nodup) (h : others.Perm services) :
    (ofList others).find? address = (ofList services).find? address := by
  have hothers : (others.map (·.apiRoot)).Nodup := (h.map _).nodup_iff.2 hdistinct
  refine Option.ext fun s => ?_
  rw [find?_eq_some_iff_isNearest hdistinct, find?_eq_some_iff_isNearest hothers]
  exact ⟨fun hs => hs.perm h, fun hs => hs.perm h.symm⟩

/-- An address belongs to a service just if it begins with a configured root, and then it
belongs to the first service with the longest such root. Where the roots are different, it
belongs to the same service in whatever order they are configured. -/
theorem address_belongs_to_nearest (services : List ServiceConfig) (address : String) :
    ((∃ s, (ofList services).find? address = some s) ↔
      ∃ s ∈ services, s.apiRoot.toList <+: address.toList) ∧
    (∀ s, (ofList services).find? address = some s ↔
      IsNearest services address s ∧ ∃ i : Nat, services[i]? = some s ∧
        ∀ (j : Nat) other, services[j]? = some other → other.apiRoot = s.apiRoot → i ≤ j) ∧
    ((services.map (·.apiRoot)).Nodup → ∀ others : List ServiceConfig, others.Perm services →
      (ofList others).find? address = (ofList services).find? address) :=
  ⟨exists_find?_iff, fun _ => find?_eq_some_iff, fun hdistinct _ => find?_perm hdistinct⟩

/-- Whatever a host has. -/
def hostService : ServiceConfig where
  apiRoot := "https://ztc.example.com/"

/-- A catalog on that host, with credentials of its own. -/
def catalogService : ServiceConfig where
  apiRoot := "https://ztc.example.com/catalogi/api/v1/"
  clientId := some "reader"
  secret := some "hush"

/-- What lies below the catalog belongs to it, in whatever order the two are configured. -/
theorem nested_root_is_nearest :
    ([hostService, catalogService].map (·.apiRoot)).Nodup ∧
      [catalogService, hostService].Perm [hostService, catalogService] ∧
      (ofList [catalogService, hostService]).find?
        "https://ztc.example.com/catalogi/api/v1/zaaktypen/1" = some catalogService ∧
      (ofList [hostService, catalogService]).find?
        "https://ztc.example.com/catalogi/api/v1/zaaktypen/1" = some catalogService := by
  have hdistinct : ([hostService, catalogService].map (·.apiRoot)).Nodup := by decide
  have hperm : [catalogService, hostService].Perm [hostService, catalogService] := .swap _ _ _
  have hnearest : IsNearest [hostService, catalogService]
      "https://ztc.example.com/catalogi/api/v1/zaaktypen/1" catalogService :=
    ⟨by simp, by decide +kernel, by decide +kernel⟩
  have hfound := (find?_eq_some_iff_isNearest hdistinct).2 hnearest
  obtain ⟨-, -, horder⟩ := address_belongs_to_nearest [hostService, catalogService]
    "https://ztc.example.com/catalogi/api/v1/zaaktypen/1"
  exact ⟨hdistinct, hperm, (horder hdistinct _ hperm).trans hfound, hfound⟩

end ServiceMap

end CaseAccess
