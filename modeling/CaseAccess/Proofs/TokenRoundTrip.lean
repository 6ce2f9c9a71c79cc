import CaseAccess.Config.Sections
import CaseAccess.Proofs.ByteText
import CaseAccess.Proofs.Effect
import CaseAccess.Proofs.JsonText
import CaseAccess.Proofs.RecordReading
import CaseAccess.Token.Signing
import Mathlib.Data.List.DropRight

/-!
# A signed token is taken, within the window

A token that a client signs says what the client said, for every name, secret and text,
and whether it is taken is a question of time alone: not before its time of issue, and not
after the expiry, with the leeway on both sides. Within the bounds that a configuration
keeps, the window is that of exact numbers. Sums stop at the bounds of 64 bits, and where
they stop no time of issue lies beyond.
-/

namespace CaseAccess

/-! ## The window -/

namespace TokenWindow

variable {w : TokenWindow} {now issuedAt : Int}

/-- The bounds that a configuration keeps. -/
def IsBounded (w : TokenWindow) : Prop := w.leeway < w.expiry ∧ w.expiry ≤ maxTokenWindow

/-- For times of 64 bits a sum stops only where no time lies beyond it. -/
theorem check_eq_exact (hw : w.IsBounded) (hnow : Integer64.contains now = true)
    (hissued : Integer64.contains issuedAt = true) :
    w.check now issuedAt =
      if now + w.leeway < issuedAt then .error .notYetValid
      else if issuedAt < now - w.expiry - w.leeway then .error .expired
      else .ok () := by
  have hexpiry : w.expiry ≤ 86400 := hw.2
  have hleeway : w.leeway < w.expiry := hw.1
  have hnow := Integer64.bounds_of_contains hnow
  have hissued := Integer64.bounds_of_contains hissued
  have hsmall : ∀ n : Nat, n ≤ 86400 → Integer64.clamp n = n := by
    intro n hn
    simp only [Integer64.clamp, Integer64.least, Integer64.greatest]
    omega
  have hlate : Integer64.clamp (now + w.leeway) < issuedAt ↔ now + w.leeway < issuedAt := by
    simp only [Integer64.clamp, Integer64.least, Integer64.greatest]
    omega
  have hearly : issuedAt < Integer64.clamp (Integer64.clamp (now - w.expiry) - w.leeway) ↔
      issuedAt < now - w.expiry - w.leeway := by
    simp only [Integer64.clamp, Integer64.least, Integer64.greatest]
    omega
  simp only [check, hsmall w.expiry hexpiry, hsmall w.leeway (by omega), hlate, hearly]

end TokenWindow

/-- The window of a configuration that is accepted has its bounds. -/
theorem AuthnConfig.isBounded_window {env : Environment} {config completed : AuthnConfig}
    (h : config.complete env = .ok completed) : completed.window.IsBounded := by
  rw [complete] at h
  obtain ⟨-, hcomplete⟩ := except_of_refusal_ok h
  obtain ⟨hlong, hcomplete⟩ := except_of_refusal_ok hcomplete
  obtain ⟨hleeway, hcomplete⟩ := except_of_refusal_ok hcomplete
  obtain ⟨secrets, -, hcomplete⟩ := except_of_bind_ok hcomplete
  cases hcomplete
  exact ⟨Nat.lt_of_not_le hleeway, Nat.le_of_not_lt hlong⟩

namespace Token

open Json (Layout Members)

/-- Each of the claims is read from its own member. -/
theorem Claims.read_layout {members : Members} {claims : Claims} :
    Claims.layout.read members = some claims ↔
      (Layout.optional "iss" Json.text?).read members = some claims.issuer ∧
      (Layout.optional "iat" Json.int64?).read members = some claims.issuedAt ∧
      (Layout.optional "client_id" Json.text?).read members = some claims.clientId ∧
      (Layout.optional "user_id" Json.text?).read members = some claims.userId ∧
      (Layout.optional "user_representation" Json.text?).read members =
        some claims.userRepresentation := by
  simp only [Claims.layout, Layout.read_seq_eq_some, Layout.read_map_eq_some]
  constructor
  · rintro ⟨_, ⟨_, ⟨_, ⟨_, ⟨_, hissuer, rfl⟩, _, htime, rfl⟩, _, hclient, rfl⟩, _, huser, rfl⟩, _,
      htext, rfl⟩
    exact ⟨hissuer, htime, hclient, huser, htext⟩
  · rintro ⟨hissuer, htime, hclient, huser, htext⟩
    exact ⟨_, ⟨_, ⟨_, ⟨_, ⟨_, hissuer, rfl⟩, _, htime, rfl⟩, _, hclient, rfl⟩, _, huser, rfl⟩, _,
      htext, rfl⟩

/-! ## Segments -/

theorem withoutPadding_of_not_mem {s : List Char} (h : '=' ∉ s) : withoutPadding s = s := by
  refine List.rdropWhile_eq_self_iff.2 fun hs hlast => h ?_
  rw [← of_decide_eq_true hlast]
  exact List.getLast_mem hs

section Segments

variable {v : Json}

theorem document?_compact (hv : v.IsPlain) : document? (Utf8.encode v.compact) = some v := by
  rw [document?, Utf8.document_encode, Json.parse?_compact hv]

theorem strictDocument_segment (hv : v.IsPlain) : strictDocument (segment v) = .ok v := by
  simp only [strictDocument, segment, Base64Url.decode?_encode, document?_compact hv]

theorem lenientDocument_segment (hv : v.IsPlain) (hwhole : isWhole v = true) :
    lenientDocument (segment v) = .ok v := by
  have hpadding : withoutPadding (segment v) = segment v :=
    withoutPadding_of_not_mem (Base64Url.not_mem_encode _ rfl)
  rw [lenientDocument, hpadding]
  simp only [segment, Base64Url.decode?_encode, document?_compact hv, hwhole, if_true]

end Segments

/-- Three texts without a point are the segments of the token that they make. -/
theorem segments_ofList {header payload sign : List Char} (hheader : '.' ∉ header)
    (hpayload : '.' ∉ payload) (hsign : '.' ∉ sign) :
    segments (String.ofList (header ++ '.' :: payload ++ '.' :: sign)) =
      [header, payload, sign] := by
  rw [segments, String.toList_ofList, List.append_assoc, List.cons_append,
    Url.splitOn_append hheader, Url.splitOn_append hpayload, Url.splitOn_of_not_mem hsign]

/-! ## What a client signs -/

section Signed

variable (clientId : String) (issuedAt : Int) (userId userRepresentation : Option String)

theorem isPlain_headerOf : (headerOf clientId).IsPlain := by
  simp only [headerOf, Json.IsPlain, Json.HavePlain, and_self]

theorem decode_headerOf : headerLayout.decode (headerOf clientId) = some .hs256 := rfl

theorem namedClient?_headerOf {clientId : String} (h : clientId ≠ "") :
    namedClient? "client_identifier" (headerOf clientId) = some clientId := by
  have htext : memberText? "client_identifier" (headerOf clientId) = some clientId := rfl
  rw [namedClient?, htext, Option.filter_some, if_pos (decide_eq_true h)]

variable {issuedAt} (h : Integer64.contains issuedAt = true)
include h

theorem isPlain_claimsOf :
    (claimsOf clientId issuedAt userId userRepresentation).toJson.IsPlain := by
  have hbounds := Integer64.bounds_of_contains h
  have htime : -0x8000000000000000 ≤ issuedAt ∧ issuedAt < 0x10000000000000000 := by omega
  simp only [claimsOf, Claims.toJson, Json.ofOption, Json.IsPlain, Json.HavePlain, true_and,
    and_true]
  exact htime

theorem claims?_claimsOf :
    claims? (claimsOf clientId issuedAt userId userRepresentation).toJson =
      some (claimsOf clientId issuedAt userId userRepresentation) := by
  have htime : Json.int64? (.integer issuedAt) = some issuedAt :=
    if_pos (Integer64.bounds_of_contains h)
  have hregistered :
      registeredClaims (claimsOf clientId issuedAt userId userRepresentation).toJson = true := rfl
  rw [claims?, if_pos hregistered]
  refine (Layout.decode_object rfl).trans (Claims.read_layout.2 ⟨rfl, ?_, rfl, rfl, rfl⟩)
  show (Json.int64? (.integer issuedAt)).map some = some (some issuedAt)
  rw [htime]
  rfl

end Signed

section Sign

variable (s : Signer) {issuedAt : Int} (userId userRepresentation : Option String)

theorem segments_sign (issuedAt : Int) :
    segments (s.sign issuedAt userId userRepresentation) =
      [segment (headerOf s.clientId),
        segment (claimsOf s.clientId issuedAt userId userRepresentation).toJson,
        signature s.secret (segment (headerOf s.clientId) ++
          '.' :: segment (claimsOf s.clientId issuedAt userId userRepresentation).toJson)] :=
  segments_ofList (Base64Url.not_mem_encode _ rfl) (Base64Url.not_mem_encode _ rfl)
    (Base64Url.not_mem_encode _ rfl)

theorem client_sign (hclient : s.clientId ≠ "") (issuedAt : Int) :
    client (s.sign issuedAt userId userRepresentation) = .ok s.clientId := by
  rw [client, segments_sign]
  simp only [lenientDocument_segment (isPlain_headerOf s.clientId) rfl, except_ok_bind,
    namedClient?_headerOf hclient]
  rfl

theorem signedClaims_sign (h : Integer64.contains issuedAt = true) :
    signedClaims s.secret (s.sign issuedAt userId userRepresentation) =
      .ok (claimsOf s.clientId issuedAt userId userRepresentation) := by
  rw [signedClaims, segments_sign]
  simp only [strictDocument_segment (isPlain_headerOf s.clientId),
    strictDocument_segment (isPlain_claimsOf s.clientId userId userRepresentation h),
    claims?_claimsOf s.clientId userId userRepresentation h, decode_headerOf, except_ok_bind,
    ne_eq, not_true, if_false]
  rfl

/-- What a token says that the client signed, if the time is right. -/
theorem verify_sign {secrets : Secrets} {window : TokenWindow} {now : Int}
    (hclient : s.clientId ≠ "") (hsecret : secrets s.clientId = some s.secret)
    (h : Integer64.contains issuedAt = true) :
    verify secrets window now (s.sign issuedAt userId userRepresentation) =
      (window.check now issuedAt).map fun _ =>
        ⟨s.clientId, issuedAt, some s.clientId, some (userId.getD ""),
          some (userRepresentation.getD "")⟩ := by
  rw [verify, client_sign s userId userRepresentation hclient]
  simp only [hsecret, signedClaims_sign s userId userRepresentation h, claimsOf, except_ok_bind]
  cases window.check now issuedAt <;> rfl

end Sign

/-! ## In a header -/

/-- The characters that tokens are written in can be seen. -/
theorem toNat_of_bits? {c : Char} (h : (Base64Url.bits? c).isSome) :
    45 ≤ c.toNat ∧ c.toNat ≤ 122 := by
  have hle : ∀ {d e : Char}, d ≤ e → d.toNat ≤ e.toNat := fun h => h
  rw [Base64Url.bits?] at h
  split at h
  · next hc => exact ⟨(by decide : 45 ≤ 'A'.toNat).trans (hle hc.1), (hle hc.2).trans (by decide)⟩
  split at h
  · next hc => exact ⟨(by decide : 45 ≤ 'a'.toNat).trans (hle hc.1), (hle hc.2).trans (by decide)⟩
  split at h
  · next hc => exact ⟨(by decide : 45 ≤ '0'.toNat).trans (hle hc.1), (hle hc.2).trans (by decide)⟩
  split at h
  · next hc => subst hc; decide
  split at h
  · next hc => subst hc; decide
  · cases h

theorem wordsOf_go_append {word : List Char} (hword : ∀ c ∈ word, isBlank c = false)
    (read rest : List Char) :
    wordsOf.go read (word ++ rest) = wordsOf.go (word.reverse ++ read) rest := by
  induction word generalizing read with
  | nil => rfl
  | cons c word ih =>
      have hc : isBlank c = false := hword c (List.mem_cons_self ..)
      rw [List.cons_append, wordsOf.go, hc, if_neg Bool.false_ne_true,
        ih fun d hd => hword d (List.mem_cons_of_mem _ hd), List.reverse_cons, List.append_assoc]
      rfl

/-- The word after `Bearer` is the token. -/
theorem bearerToken_of_word {word : List Char} (hne : word ≠ [])
    (hword : ∀ c ∈ word, isBlank c = false) :
    bearerToken (some ("Bearer " ++ String.ofList word)) = .ok (String.ofList word) := by
  have hlast : wordsOf.go [] word = [word] := by
    rw [← List.append_nil word, wordsOf_go_append hword, List.append_nil, List.append_nil,
      wordsOf.go, if_neg (List.reverse_eq_nil_iff.not.2 hne), List.reverse_reverse]
  have hwords : wordsOf ("Bearer " ++ String.ofList word).toList = ["Bearer".toList, word] := by
    have hchars : (String.ofList word).toList = word := String.toList_ofList
    rw [String.toList_append, hchars]
    show "Bearer".toList :: wordsOf.go [] word = _
    rw [hlast]
  rw [bearerToken, Option.map_some, hwords]
  rfl

section Presented

variable (s : Signer) (issuedAt : Int) (userId userRepresentation : Option String)

theorem toNat_of_mem_sign {c : Char} (h : c ∈ (s.sign issuedAt userId userRepresentation).toList) :
    45 ≤ c.toNat ∧ c.toNat ≤ 122 := by
  have hsegment : ∀ bytes, c ∈ Base64Url.encode bytes → 45 ≤ c.toNat ∧ c.toNat ≤ 122 :=
    fun bytes hmem => toNat_of_bits?
      (Base64Url.isSome_bits?_of_decode? (Base64Url.decode?_encode bytes) c hmem)
  have hpoint : c = '.' → 45 ≤ c.toNat ∧ c.toNat ≤ 122 := by
    rintro rfl
    decide
  rw [Signer.sign, String.toList_ofList] at h
  simp only [List.mem_append, List.mem_cons] at h
  rcases h with (h | h | h) | h | h
  · exact hsegment _ h
  · exact hpoint h
  · exact hsegment _ h
  · exact hpoint h
  · exact hsegment _ h

/-- A token that a client signed, as it is presented. -/
theorem authenticate_sign (secrets : Secrets) (window : TokenWindow) (now : Int) :
    authenticate secrets window now
        (some ("Bearer " ++ s.sign issuedAt userId userRepresentation)) =
      verify secrets window now (s.sign issuedAt userId userRepresentation) := by
  have hne : (s.sign issuedAt userId userRepresentation).toList ≠ [] := by
    rw [Signer.sign, String.toList_ofList]
    exact List.append_ne_nil_of_right_ne_nil _ (List.cons_ne_nil _ _)
  have htoken := bearerToken_of_word hne fun c hc => isBlank_of_toNat
    (by have := toNat_of_mem_sign s issuedAt userId userRepresentation hc; omega)
  rw [String.ofList_toList] at htoken
  rw [authenticate, htoken]
  rfl

end Presented

/-- Whether a signed token is taken depends on the time alone, in exact numbers, and what
is taken says what was signed. -/
theorem sign_taken_within_window {env : Environment} {config completed : AuthnConfig}
    {clientId secret : String} {secrets : Secrets} {now issuedAt : Int}
    (hconfig : config.complete env = .ok completed)
    (hclient : clientId ≠ "") (hsecret : secret ≠ "") (hknown : secrets clientId = some secret)
    (hnow : Integer64.contains now = true) (hissued : Integer64.contains issuedAt = true)
    (userId userRepresentation : Option String) :
    ∃ signer, Signer.of? clientId secret = .ok signer ∧
      verify secrets completed.window now (signer.sign issuedAt userId userRepresentation) =
        if now + completed.window.leeway < issuedAt then .error .notYetValid
        else if issuedAt < now - completed.window.expiry - completed.window.leeway then
          .error .expired
        else
          .ok { clientId, issuedAt, issuer := some clientId, userId := some (userId.getD "")
                userRepresentation := some (userRepresentation.getD "") } := by
  have hbounded := AuthnConfig.isBounded_window hconfig
  refine ⟨⟨clientId, secret⟩, ?_, ?_⟩
  · rw [Signer.of?, if_neg hclient, if_neg hsecret]
  · rw [verify_sign ⟨clientId, secret⟩ userId userRepresentation hclient hknown hissued,
      TokenWindow.check_eq_exact hbounded hnow hissued]
    split
    · rfl
    · split <;> rfl

/-- At the end of all times a token of the last second is taken. -/
theorem last_second_is_taken :
    ∃ signer, Signer.of? "planner" "dwarsstraat" = .ok signer ∧
      verify (fun _ => some "dwarsstraat") {} Integer64.greatest
        (signer.sign Integer64.greatest (some "jansen\u00e9\n") none) =
        .ok { clientId := "planner", issuedAt := Integer64.greatest, issuer := some "planner"
              userId := some "jansen\u00e9\n", userRepresentation := some "" } := by
  have hconfig : AuthnConfig.complete (fun _ => none) {} = .ok {} := rfl
  have hclient : "planner" ≠ "" := by decide
  have hsecret : "dwarsstraat" ≠ "" := by decide
  have hgreatest : Integer64.contains Integer64.greatest = true := by decide
  exact sign_taken_within_window hconfig hclient hsecret rfl hgreatest hgreatest
    (some "jansen\u00e9\n") none

end Token

end CaseAccess
