import CaseAccess.Proofs.TokenRoundTrip

/-!
# A token that is taken was signed with its client's secret

A token is read twice. The first reading looks for the client, in whatever document it
finds and with padding or without, and decides which secret is asked for; the second one
asks whether that secret signed the text. What is trusted must not depend on a difference
between the two, whatever text a caller makes up. It does not, since the second reading
only takes segments without padding, and of these both readings make the same documents.

Header and payload may be objects or arrays, so the claims of a token are stated by `part?`,
the member of an object or the item of an array.
-/

namespace CaseAccess

/-- Sums that stop at a bound only make the window narrower. -/
theorem TokenWindow.within_of_check {w : TokenWindow} {now issuedAt : Int}
    (hnow : Integer64.contains now = true) (h : w.check now issuedAt = .ok ()) :
    now - w.expiry - w.leeway ≤ issuedAt ∧ issuedAt ≤ now + w.leeway := by
  have hnow := Integer64.bounds_of_contains hnow
  simp only [check] at h
  split at h
  · cases h
  next hlate =>
  split at h
  · cases h
  next hearly =>
  simp only [Integer64.clamp, Integer64.least, Integer64.greatest] at hlate hearly
  omega

namespace Token

open Json (Layout)

/-! ## The two readings -/

section Readings

variable {s : List Char} {v w : Json}

theorem of_strictDocument (h : strictDocument s = .ok v) :
    (Base64Url.decode? s).bind document? = some v := by
  simp only [strictDocument] at h
  split at h
  · cases h
  next bytes hbytes =>
  split at h
  · next hdocument =>
      cases h
      rw [hbytes, Option.bind_some, hdocument]
  · cases h

theorem of_lenientDocument (h : lenientDocument s = .ok v) :
    (Base64Url.decode? (withoutPadding s)).bind document? = some v := by
  simp only [lenientDocument] at h
  split at h
  · cases h
  next bytes hbytes =>
  split at h
  · next hdocument =>
      split at h
      · cases h
        rw [hbytes, Option.bind_some, hdocument]
      · cases h
  · cases h

/-- Of a segment that both of them take, the readings make the same document. -/
theorem readings_agree (hstrict : strictDocument s = .ok v) (hlenient : lenientDocument s = .ok w) :
    w = v := by
  have hv := of_strictDocument hstrict
  have hw := of_lenientDocument hlenient
  obtain ⟨bytes, hbytes, -⟩ := Option.bind_eq_some_iff.1 hv
  rw [withoutPadding_of_not_mem (Base64Url.not_mem_of_decode? hbytes rfl), hv] at hw
  exact (Option.some.inj hw).symm

end Readings

/-- The first reading. -/
theorem of_client {token clientId : String} (h : client token = .ok clientId) :
    ∃ header payload sign, segments token = [header, payload, sign] ∧
      ∃ v, lenientDocument header = .ok v ∧
        (namedClient? "client_identifier" v = some clientId ∨
          namedClient? "client_identifier" v = none ∧
            ∃ w, lenientDocument payload = .ok w ∧ namedClient? "client_id" w = some clientId) := by
  rw [client] at h
  split at h
  · next header payload sign hsegments =>
      obtain ⟨v, hv, hnamed⟩ := except_of_bind_ok h
      refine ⟨header, payload, sign, hsegments, v, hv, ?_⟩
      split at hnamed
      · next hname =>
          cases hnamed
          exact .inl hname
      · next hname =>
          obtain ⟨w, hw, hclient⟩ := except_of_bind_ok hnamed
          split at hclient
          · next hid =>
              cases hclient
              exact .inr ⟨hname, w, hw, hid⟩
          · cases hclient
  · cases h

/-- The second reading. -/
theorem of_signedClaims {secret token : String} {claims : Claims}
    (h : signedClaims secret token = .ok claims) :
    ∃ header payload sign, segments token = [header, payload, sign] ∧
      ∃ v w, strictDocument header = .ok v ∧ headerLayout.decode v = some .hs256 ∧
        sign = signature secret (header ++ '.' :: payload) ∧
        strictDocument payload = .ok w ∧ claims? w = some claims := by
  rw [signedClaims] at h
  split at h
  · next header payload sign hsegments =>
      obtain ⟨v, hv, hheader⟩ := except_of_bind_ok h
      split at hheader
      · cases hheader
      next algorithm hdecode =>
      obtain ⟨halgorithm, hsigned⟩ := except_of_refusal_ok hheader
      obtain ⟨hsign, hpayload⟩ := except_of_refusal_ok hsigned
      obtain ⟨w, hw, hclaims⟩ := except_of_bind_ok hpayload
      split at hclaims
      · next hread =>
          cases hclaims
          exact ⟨header, payload, sign, hsegments, v, w, hv, not_not.1 halgorithm ▸ hdecode,
            not_not.1 hsign, hw, hread⟩
      · cases hclaims
  · cases h

/-! ## What the second reading finds -/

theorem algorithm_of_decode {v : Json} {algorithm : Algorithm}
    (h : headerLayout.decode v = some algorithm) :
    ∃ w, Json.part? "alg" 1 v = some w ∧ Json.named? w = some algorithm := by
  obtain ⟨members, hread, hparts⟩ := Layout.of_decode h
  simp only [headerLayout, Layout.read_seq_eq_some, Layout.read_map_eq_some] at hread
  -- of ten members the second one makes the value; the others only have to be in order
  obtain ⟨_, ⟨_, ⟨_, ⟨_, ⟨_, ⟨_, ⟨_, ⟨_, ⟨_, ⟨_, -, rfl⟩, _, halgorithm, rfl⟩, _, -, rfl⟩,
    _, -, rfl⟩, _, -, rfl⟩, _, -, rfl⟩, _, -, rfl⟩, _, -, rfl⟩, _, -, rfl⟩, _, -, rfl⟩ := hread
  obtain ⟨w, hw, hnamed⟩ := Option.bind_eq_some_iff.1 halgorithm
  exact ⟨w, (hparts "alg" 1 rfl).symm.trans hw, hnamed⟩

/-- The claims are those that the document makes. -/
structure Claims.MadeBy (claims : Claims) (v : Json) : Prop where
  issuer : claims.issuer = (Json.part? "iss" 0 v).bind Json.text?
  issuedAt : claims.issuedAt = (Json.part? "iat" 1 v).bind Json.int64?
  userId : claims.userId = (Json.part? "user_id" 3 v).bind Json.text?
  userRepresentation :
    claims.userRepresentation = (Json.part? "user_representation" 4 v).bind Json.text?

theorem madeBy_of_claims? {v : Json} {claims : Claims} (h : claims? v = some claims) :
    claims.MadeBy v := by
  rw [claims?] at h
  split at h
  · obtain ⟨members, hread, hparts⟩ := Layout.of_decode h
    obtain ⟨hissuer, htime, -, huser, htext⟩ := Claims.read_layout.1 hread
    exact {
      issuer := hparts "iss" 0 rfl ▸ Layout.of_read_optional rfl hissuer
      issuedAt := hparts "iat" 1 rfl ▸ Layout.of_read_optional rfl htime
      userId := hparts "user_id" 3 rfl ▸ Layout.of_read_optional rfl huser
      userRepresentation :=
        hparts "user_representation" 4 rfl ▸ Layout.of_read_optional rfl htext }
  · cases h

/-! ## What is taken -/

/-- What a token is read as: the texts between its points, and the documents of the first
two. -/
structure Reading where
  header : List Char
  payload : List Char
  sign : List Char
  headerDocument : Json
  payloadDocument : Json

/-- The credential is what that token says, signed with the secret of its client and issued
within the window. -/
structure Reading.Supports (r : Reading) (secrets : Secrets) (window : TokenWindow) (now : Int)
    (token : String) (k : Credential) : Prop where
  text : token.toList = r.header ++ '.' :: r.payload ++ '.' :: r.sign
  noPoint : ∀ part ∈ [r.header, r.payload, r.sign], '.' ∉ part
  header : (Base64Url.decode? r.header).bind document? = some r.headerDocument
  payload : (Base64Url.decode? r.payload).bind document? = some r.payloadDocument
  algorithm : ∃ v, Json.part? "alg" 1 r.headerDocument = some v ∧
    Json.named? v = some Algorithm.hs256
  client : (namedClient? "client_identifier" r.headerDocument).or
    (namedClient? "client_id" r.payloadDocument) = some k.clientId
  signed : ∃ secret, secrets k.clientId = some secret ∧
    r.sign = Base64Url.encode (Sha256.hmac (Utf8.encode secret)
      (Utf8.encode (String.ofList (r.header ++ '.' :: r.payload))))
  issuedAt : Json.part? "iat" 1 r.payloadDocument = some (.integer k.issuedAt)
  issuer : k.issuer = (Json.part? "iss" 0 r.payloadDocument).bind Json.text?
  userId : k.userId = (Json.part? "user_id" 3 r.payloadDocument).bind Json.text?
  userRepresentation :
    k.userRepresentation = (Json.part? "user_representation" 4 r.payloadDocument).bind Json.text?
  notEarly : now - window.expiry - window.leeway ≤ k.issuedAt
  notLate : k.issuedAt ≤ now + window.leeway

variable {secrets : Secrets} {window : TokenWindow} {now : Int} {token : String} {k : Credential}

theorem of_verify (h : verify secrets window now token = .ok k) :
    client token = .ok k.clientId ∧ ∃ secret claims, secrets k.clientId = some secret ∧
      signedClaims secret token = .ok claims ∧ claims.issuedAt = some k.issuedAt ∧
      window.check now k.issuedAt = .ok () ∧
      k = ⟨k.clientId, k.issuedAt, claims.issuer, claims.userId, claims.userRepresentation⟩ := by
  rw [verify] at h
  obtain ⟨clientId, hclient, hknown⟩ := except_of_bind_ok h
  split at hknown
  · cases hknown
  next secret hsecret =>
  obtain ⟨claims, hclaims, htime⟩ := except_of_bind_ok hknown
  split at htime
  · cases htime
  next issuedAt hissued =>
  obtain ⟨⟨⟩, hcheck, hk⟩ := except_of_bind_ok htime
  cases hk
  exact ⟨hclient, secret, claims, hsecret, hclaims, hissued, hcheck, rfl⟩

/-- A token is only taken for what was signed with the secret of the client that it is
taken to come from. -/
theorem verified_token_is_signed (hnow : Integer64.contains now = true)
    (h : verify secrets window now token = .ok k) :
    ∃ r : Reading, r.Supports secrets window now token k := by
  obtain ⟨hclient, secret, claims, hsecret, hclaims, hissued, hcheck, hk⟩ := of_verify h
  obtain ⟨header, payload, sign, hsegments, v, hv, hnamed⟩ := of_client hclient
  obtain ⟨header', payload', sign', hsegments', d, e, hd, halgorithm, hsign, he, hread⟩ :=
    of_signedClaims hclaims
  -- both readings are of the same segments, and of the same documents
  obtain ⟨rfl, rfl, rfl⟩ : header' = header ∧ payload' = payload ∧ sign' = sign := by
    simpa using hsegments'.symm.trans hsegments
  obtain rfl := readings_agree hd hv
  have hmade := madeBy_of_claims? hread
  obtain ⟨w, hw, htime⟩ := Option.bind_eq_some_iff.1 (hmade.issuedAt.symm.trans hissued)
  have hwithin := TokenWindow.within_of_check hnow hcheck
  refine ⟨⟨header', payload', sign', v, e⟩, {
    text := ?_
    noPoint := fun part hpart => Url.not_mem_of_mem_splitOn (hsegments ▸ hpart)
    header := of_strictDocument hd
    payload := of_strictDocument he
    algorithm := algorithm_of_decode halgorithm
    client := ?_
    signed := ⟨secret, hsecret, hsign⟩
    issuedAt := hw.trans (congrArg some (Json.eq_integer_of_int64? htime))
    issuer := ?_
    userId := ?_
    userRepresentation := ?_
    notEarly := hwithin.1
    notLate := hwithin.2 }⟩
  · have hjoin : Url.joinWith '.' (segments token) = token.toList := Url.joinWith_splitOn
    rw [← hjoin, hsegments]
    simp [Url.joinWith]
  · rcases hnamed with hname | ⟨hname, p, hp, hid⟩
    · rw [hname, Option.some_or]
    · rw [hname, Option.none_or, ← readings_agree he hp, hid]
  · rw [hk]
    exact hmade.issuer
  · rw [hk]
    exact hmade.userId
  · rw [hk]
    exact hmade.userRepresentation

/-- Of two clients with a secret each, the one that signed is the one that is taken. -/
theorem signer_is_the_client :
    ∃ r : Reading, r.Supports (fun id => if id = "planner" then some "dwarsstraat" else some "kade")
      {} 3600 (Signer.sign ⟨"planner", "dwarsstraat"⟩ 0 (some "jansen") none)
      ⟨"planner", 0, some "planner", some "jansen", some ""⟩ := by
  have hnow : Integer64.contains 3600 = true := by decide
  have hissued : Integer64.contains 0 = true := by decide
  have hclient : "planner" ≠ "" := by decide
  exact verified_token_is_signed hnow
    (verify_sign ⟨"planner", "dwarsstraat"⟩ (some "jansen") none hclient rfl hissued)

end Token

end CaseAccess
