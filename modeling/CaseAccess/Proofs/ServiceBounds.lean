import CaseAccess.Proofs.AddressBelow
import CaseAccess.Proofs.Lookup
import CaseAccess.Proofs.ReferenceReading

/-!
# Where services are asked

A type of another installation is fetched from the service with a root that the reference
begins with, and with the credentials for that service. The reference is compared as it was
written. What is requested is the address that it is read as, and this one may have left
the root: two points behind the root of a service lead to everything on its host.

They do not lead to another host. The root of a configured service is in normal form, so
reading comes back with its scheme and its host, and what follows is resolved from the path
of the root. So a request is below the root just if the segments that are written behind it
stay below its path. Of the addresses of files, which no service answers for, nothing is said:
there a drive takes the place of all that stands before it, and of the host.
-/

namespace CaseAccess

open Operation
open Url (IsNormal StaysBelow cleaned directoryOf isDoubleDot writtenSegments)

/-- The service answers below an address that was read and has segments. -/
structure ServiceConfig.AnswersBelow (s : ServiceConfig) (root : Url) : Prop where
  parsed : ∃ text, Url.parse text = .ok root
  segments : root.isOpaque = false
  apiRoot : s.apiRoot.toList = withSlash root.chars

theorem ServiceConfig.exists_answersBelow {env : Environment} {given service : ServiceConfig}
    (h : given.complete env = .ok service) : ∃ root, service.AnswersBelow root := by
  rw [complete] at h
  split at h
  · next root hparsed =>
    obtain ⟨hsegments, h⟩ := except_of_refusal_ok h
    obtain ⟨secret, -, h⟩ := except_of_bind_ok h
    obtain ⟨-, h⟩ := except_of_refusal_ok h
    cases h
    exact ⟨root, ⟨_, hparsed⟩, Bool.eq_false_iff.2 hsegments, String.toList_ofList⟩
  · cases h

/-- A remote reference that was read is an address with segments. -/
theorem LocalBases.exists_parsed {bases : LocalBases} {text : String} {r : TypeRef}
    (h : bases.read text = .ok r) (hr : r.isRemote = true) :
    ∃ url, Url.parse r.key = .ok url ∧ url.isOpaque = false := by
  obtain ⟨rfl, -, url, hparsed, hsegments, -⟩ := remote_cases (read_iff.1 h) hr
  refine ⟨url, ?_, hsegments⟩
  rw [Url.parse, String.toList_ofList]
  exact hparsed

/-- A service is asked for a reference that begins with its root. -/
theorem exists_service_of_asked {r : TypeRef} {component : Component} {c : Context}
    {i : Installation} {f : Fetch}
    (h : (fetchType r component c i).2.fetches = i.fetches ++ [f]) :
    ∃ service ∈ c.services.services, f = ⟨service.apiRoot, r.key⟩ ∧
      service.apiRoot.toList <+: r.key.toList := by
  have hcontext : context c i = (.ok c, i) := rfl
  rw [fetchType, bind_of_ok hcontext] at h
  cases hfind : c.services.find? r.key with
  | none =>
      rw [hfind] at h
      have hnone : i.fetches = i.fetches ++ [f] := h
      exact absurd (List.self_eq_append_right.1 hnone) (List.cons_ne_nil f [])
  | some service =>
      have hbegins := List.find?_some hfind
      rw [hfind] at h
      have hf : i.fetches ++ [⟨service.apiRoot, r.key⟩] = i.fetches ++ [f] := h
      exact ⟨service, List.mem_of_find?_eq_some hfind,
        (List.singleton_inj.1 (List.append_cancel_left hf)).symm,
        List.isPrefixOf_iff_prefix.1 hbegins⟩

/-- How the address of a request follows the root of the service that is asked: `rest` is
what is written behind the root. -/
structure Fetch.Follows (f : Fetch) (root url : Url) (rest : List Char) : Prop where
  written : cleaned f.url.toList = f.apiRoot.toList ++ rest
  scheme : url.scheme = root.scheme
  authority : ∀ a, a ≠ [] → root.authority = some a → url.authority = some a
  below_iff : f.apiRoot.toList <+: url.chars ↔ (root.EndsInPath →
    StaysBelow (directoryOf root.segments) (writtenSegments root.scheme rest))
  below_of_noDoubleDot : (∀ s ∈ writtenSegments root.scheme rest, isDoubleDot s = false) →
    f.apiRoot.toList <+: url.chars

/-- A configured service is asked for addresses on its own host, and for one that is not
below its root just if the segments that are written behind the root lead out of its path. -/
theorem fetch_follows_root {c : Context} {i : Installation} {text : String} {r : TypeRef}
    {component : Component} {f : Fetch}
    (hservices : ∀ service ∈ c.services.services,
      ∃ env given, ServiceConfig.complete env given = .ok service)
    (hread : c.bases.read text = .ok r) (hremote : r.isRemote = true)
    (hasked : (fetchType r component c i).2.fetches = i.fetches ++ [f]) :
    ∃ service ∈ c.services.services, ∃ root url, service.AnswersBelow root ∧
      f = ⟨service.apiRoot, r.key⟩ ∧ Url.parse r.key = .ok url ∧
      (url.scheme ≠ "file".toList → ∃ rest, f.Follows root url rest) := by
  obtain ⟨service, hservice, rfl, hprefix⟩ := exists_service_of_asked hasked
  obtain ⟨env, given, hcomplete⟩ := hservices service hservice
  obtain ⟨root, hroot⟩ := ServiceConfig.exists_answersBelow hcomplete
  obtain ⟨url, hurl, hlisted⟩ := LocalBases.exists_parsed hread hremote
  refine ⟨service, hservice, root, url, hroot, rfl, hurl, fun hother => ?_⟩
  obtain ⟨own, hown⟩ := hroot.parsed
  obtain ⟨behind, hbehind⟩ := hprefix
  have hfile : root.scheme ≠ "file".toList := fun hfile => by
    rw [Url.parse, ← hbehind, hroot.apiRoot] at hurl
    exact hother (Url.scheme_of_fileRoot hfile hurl)
  have hnormal : IsNormal root := Url.isNormal_of_ofText hown hroot.segments hfile
  obtain ⟨rest, hrest⟩ := hnormal.exists_cleaned behind
  rw [← hroot.apiRoot, hbehind] at hrest
  obtain ⟨hscheme, hauthority, hiff⟩ :=
    hnormal.below_root hfile (hroot.apiRoot ▸ hrest) hurl hlisted
  rw [← hroot.apiRoot] at hiff
  exact ⟨rest, hrest, hscheme, hauthority, hiff, fun hpoints =>
    hiff.2 fun _ => Url.staysBelow_of_noDoubleDot Url.rawSegments_ne_nil hpoints⟩

/-- A neighbour as it is configured. -/
def givenNeighbour : ServiceConfig := ⟨"http://far.example/api", some "reader", some "hush"⟩

/-- The neighbour with its root in normal form. -/
def neighbour : ServiceConfig := { givenNeighbour with apiRoot := "http://far.example/api/" }

theorem complete_givenNeighbour : givenNeighbour.complete (fun _ => none) = .ok neighbour := by
  have hsome : (givenNeighbour.complete fun _ => none).toOption = some neighbour := by
    decide +kernel
  cases hcomplete : givenNeighbour.complete fun _ => none with
  | ok service =>
      rw [hcomplete] at hsome
      exact congrArg Except.ok (Option.some.inj hsome)
  | error e =>
      rw [hcomplete] at hsome
      cases hsome

def Context.nextToNeighbour : Context := { Context.alone with services := ⟨[neighbour]⟩ }

/-- A type that is written below the root of the neighbour is asked for there. -/
theorem neighbour_asked_below :
    (∀ service ∈ Context.nextToNeighbour.services.services,
      ∃ env given, ServiceConfig.complete env given = .ok service) ∧
    Context.nextToNeighbour.bases.read "http://far.example/api/zaaktypen/1" =
      .ok ⟨"http://far.example/api/zaaktypen/1"⟩ ∧
    (fetchType ⟨"http://far.example/api/zaaktypen/1"⟩ .zrc Context.nextToNeighbour
      {}).2.fetches = [⟨neighbour.apiRoot, "http://far.example/api/zaaktypen/1"⟩] ∧
    ∃ url, Url.parse "http://far.example/api/zaaktypen/1" = .ok url ∧
      neighbour.apiRoot.toList <+: url.chars := by
  have hservices : ∀ service ∈ Context.nextToNeighbour.services.services,
      ∃ env given, ServiceConfig.complete env given = .ok service :=
    List.forall_mem_singleton.2 ⟨_, _, complete_givenNeighbour⟩
  have hread : Context.nextToNeighbour.bases.read "http://far.example/api/zaaktypen/1" =
      .ok ⟨"http://far.example/api/zaaktypen/1"⟩ := by decide +kernel
  have hasked : (fetchType ⟨"http://far.example/api/zaaktypen/1"⟩ .zrc Context.nextToNeighbour
      {}).2.fetches = [⟨neighbour.apiRoot, "http://far.example/api/zaaktypen/1"⟩] := by
    decide +kernel
  refine ⟨hservices, hread, hasked, ?_⟩
  have hparsed : Url.parse "http://far.example/api/zaaktypen/1" = .ok ⟨"http".toList,
      some "far.example".toList, .segments ["api".toList, "zaaktypen".toList, "1".toList], none,
      none⟩ := by decide +kernel
  obtain ⟨service, hservice, root, url, hroot, -, hurl, hfollows⟩ :=
    fetch_follows_root hservices hread (by decide) hasked
  obtain rfl := Except.ok.inj (hparsed.symm.trans hurl)
  obtain ⟨rest, hrest⟩ := hfollows (by decide)
  have hclean : cleaned "http://far.example/api/zaaktypen/1".toList =
      neighbour.apiRoot.toList ++ "zaaktypen/1".toList := by decide +kernel
  obtain rfl := List.append_cancel_left (hclean.symm.trans hrest.written)
  refine ⟨_, hparsed, hrest.below_of_noDoubleDot ?_⟩
  rw [← hrest.scheme]
  decide +kernel

/-- Two points behind the root of the neighbour lead out of it, with its credentials. -/
theorem neighbour_asked_outside :
    givenNeighbour.complete (fun _ => none) = .ok neighbour ∧
    Context.nextToNeighbour.services.services = [neighbour] ∧
    Context.nextToNeighbour.bases.read "http://far.example/api/../zaaktypen/1" =
      .ok ⟨"http://far.example/api/../zaaktypen/1"⟩ ∧
    TypeRef.isRemote ⟨"http://far.example/api/../zaaktypen/1"⟩ = true ∧
    (fetchType ⟨"http://far.example/api/../zaaktypen/1"⟩ .zrc Context.nextToNeighbour
      {}).2.fetches = [⟨neighbour.apiRoot, "http://far.example/api/../zaaktypen/1"⟩] ∧
    ∃ url, Url.parse "http://far.example/api/../zaaktypen/1" = .ok url ∧
      url.text = "http://far.example/zaaktypen/1" ∧
      ¬ neighbour.apiRoot.toList <+: url.chars := by
  refine ⟨complete_givenNeighbour, rfl, by decide +kernel, by decide, by decide +kernel, ?_⟩
  refine ⟨⟨"http".toList, some "far.example".toList, .segments ["zaaktypen".toList, "1".toList],
    none, none⟩, by decide +kernel, by decide +kernel, by decide +kernel⟩

end CaseAccess
