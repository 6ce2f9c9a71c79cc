import CaseAccess.Proofs.AddressItem
import CaseAccess.Proofs.HostText

/-!
# An authority is read again as itself

The part of an address before its path is made up of a user, a host and a number. In the
normal form a user ends in the only `@` there is, and the number begins at the only colon
that is not in brackets and not before the `@`. So the form is taken apart where it was put
together, and each part is read as itself.
-/

namespace CaseAccess.Url

section Authority

variable {c : Char} {scheme s authority again user host number : List Char} {atEnd : Bool}

/-! ## Taking apart -/

/-- What a text goes on with up to a character, and the rest from there. -/
theorem span_stop {p : Char → Bool} {front rest : List Char} (hfront : ∀ c ∈ front, p c = true)
    (hc : p c = false) : (front ++ c :: rest).span p = (front, c :: rest) := by
  rw [span_append hfront, List.span_eq_takeWhile_dropWhile,
    List.takeWhile_cons_of_neg (by simp [hc]), List.dropWhile_cons_of_neg (by simp [hc]),
    List.append_nil]

theorem span_all {p : Char → Bool} (h : ∀ c ∈ s, p c = true) : s.span p = (s, []) := by
  have hspan := span_append h []
  rw [List.append_nil] at hspan
  rw [hspan]
  exact congrArg (Prod.mk · []) (List.append_nil s)

theorem splitLast_of_not_mem {mark : Char} (h : mark ∉ s) : splitLast mark s = none := by
  rw [splitLast, span_all (ne_of_not_mem (by simpa using h))]

theorem splitLast_append {mark : Char} {before after : List Char} (h : mark ∉ after) :
    splitLast mark (before ++ mark :: after) = some (before, after) := by
  have hreverse : (before ++ mark :: after).reverse = after.reverse ++ mark :: before.reverse := by
    simp
  rw [splitLast, hreverse, span_stop (ne_of_not_mem (by simpa using h)) (by simp)]
  simp

theorem splitPort_plain (h : ∀ c ∈ [':', '[', ']'], c ∉ s) (rest : List Char) :
    splitPort false (s ++ rest) = (s ++ (splitPort false rest).1, (splitPort false rest).2) := by
  induction s with
  | nil => rfl
  | cons c tail ih =>
      have hne : ∀ d ∈ [':', '[', ']'], c ≠ d := fun d hd heq => h d hd (heq ▸ List.mem_cons_self)
      have hcolon := hne ':' (by decide)
      have hopen := hne '[' (by decide)
      have hclose := hne ']' (by decide)
      rw [List.cons_append, splitPort]
      simp only [hcolon, hopen, hclose, false_and, if_false,
        ih fun d hd hmem => h d hd (List.mem_cons_of_mem _ hmem)]
      rfl

/-- In brackets a colon begins no number. -/
theorem splitPort_inside {inner : List Char} (hopen : '[' ∉ inner) (hclose : ']' ∉ inner)
    (rest : List Char) :
    splitPort true (inner ++ ']' :: rest) =
      (inner ++ ']' :: (splitPort false rest).1, (splitPort false rest).2) := by
  induction inner with
  | nil => rfl
  | cons c tail ih =>
      obtain ⟨hc, hopen⟩ := List.ne_and_not_mem_of_not_mem_cons hopen
      obtain ⟨hc', hclose⟩ := List.ne_and_not_mem_of_not_mem_cons hclose
      rw [List.cons_append, splitPort]
      simp only [Bool.not_true, Bool.false_eq_true, and_false, if_false, Ne.symm hc, Ne.symm hc',
        ih hopen hclose]
      rfl

/-- The number begins behind the host. -/
theorem splitPort_host {special : Bool} (h : IsHost special host) (rest : List Char) :
    splitPort false (host ++ rest) =
      (host ++ (splitPort false rest).1, (splitPort false rest).2) := by
  rcases h.colons with hplain | ⟨inner, rfl, hopen, hclose⟩
  · exact splitPort_plain hplain rest
  · have hbracket : splitPort false ('[' :: (inner ++ ']' :: rest)) =
        ('[' :: (splitPort true (inner ++ ']' :: rest)).1,
          (splitPort true (inner ++ ']' :: rest)).2) := rfl
    rw [List.cons_append, List.append_assoc, List.singleton_append, hbracket,
      splitPort_inside hopen hclose]
    simp

/-! ## Users -/

/-- A user in normal form, with the `@` that ends it, or none. -/
inductive IsUser : List Char → Prop where
  | none : IsUser []
  | some (front : List Char) (plain : ∀ c ∈ front, IsHostChar c)
      (again : userText front = front ++ ['@']) : IsUser (front ++ ['@'])

theorem isHostChar_of_user (h : encodeChar userSet c = [c]) : IsHostChar c := by
  obtain ⟨hvisible, hset⟩ := of_plain h
  refine ⟨hvisible, Bool.eq_false_iff.2 fun hends => ?_, fun heq => hset (heq ▸ by decide)⟩
  simp only [endsAuthority, Bool.or_eq_true, Bool.and_eq_true, decide_eq_true_eq] at hends
  rcases hends with ((rfl | rfl) | rfl) | ⟨-, rfl⟩
  · exact hset (by decide)
  · exact hset (by decide)
  · exact hset (by decide)
  · exact hset (by decide)

/-- A password with the colon before it, or nothing. -/
def passwordText (password : List Char) : List Char :=
  if password.isEmpty then [] else ':' :: password

theorem userText_eq (s : List Char) : ∃ name password,
    (∀ c ∈ name ++ password, encodeChar userSet c = [c]) ∧
      userText s = if (name ++ passwordText password).isEmpty then []
        else name ++ passwordText password ++ ['@'] := by
  have hplain : ∀ t, ∀ c ∈ encode userSet t, encodeChar userSet c = [c] := fun t c hc =>
    (mem_encode (by decide) hc).1
  refine ⟨encode userSet (s.span (· ≠ ':')).1, encode userSet ((s.span (· ≠ ':')).2.drop 1),
    ?_, rfl⟩
  exact List.forall_mem_append.2 ⟨hplain _, hplain _⟩

/-- A user and a password that are encoded are not encoded again. -/
theorem userText_encoded {name password : List Char}
    (h : ∀ c ∈ name ++ password, encodeChar userSet c = [c])
    (hne : (name ++ passwordText password).isEmpty = false) :
    userText (name ++ passwordText password) = name ++ passwordText password ++ ['@'] := by
  obtain ⟨hname, hpassword⟩ := List.forall_mem_append.1 h
  have hcolon : ':' ∉ name := fun hmem => (of_plain (hname _ hmem)).2 (by decide)
  have hspan : (name ++ passwordText password).span (· ≠ ':') = (name, passwordText password) := by
    cases password with
    | nil =>
        rw [passwordText, if_pos List.isEmpty_nil, List.append_nil]
        exact span_all (ne_of_not_mem hcolon)
    | cons c rest => exact span_stop (ne_of_not_mem hcolon) (by decide)
  have hdrop : (passwordText password).drop 1 = password := by
    cases password with
    | nil => rfl
    | cons c rest => rfl
  rw [userText, hspan]
  simp only [hdrop, encode_eq_self hname, encode_eq_self hpassword]
  rw [← passwordText, hne, if_neg Bool.false_ne_true]

theorem isUser_userText (s : List Char) : IsUser (userText s) := by
  obtain ⟨name, password, hplain, htext⟩ := userText_eq s
  rw [htext]
  split
  · exact .none
  · next hne =>
    refine .some _ ?_ (userText_encoded hplain (Bool.eq_false_iff.2 hne))
    obtain ⟨hname, hpassword⟩ := List.forall_mem_append.1 hplain
    refine List.forall_mem_append.2 ⟨fun c hc => isHostChar_of_user (hname c hc), ?_⟩
    rw [passwordText]
    split
    · exact fun c hc => nomatch hc
    · exact List.forall_mem_cons.2 ⟨by decide, fun c hc => isHostChar_of_user (hpassword c hc)⟩

/-! ## Numbers -/

/-- A number in normal form, with its colon, or none. -/
inductive IsPort (scheme : List Char) : List Char → Prop where
  | none : IsPort scheme []
  | some (n : Nat) (again : portText scheme (Decimal.digits n) = .ok (':' :: Decimal.digits n)) :
      IsPort scheme (':' :: Decimal.digits n)

theorem isPort_portText (h : portText scheme s = .ok number) : IsPort scheme number := by
  rw [portText] at h
  generalize Decimal.value (s.takeWhile Char.isDigit) = n at h
  split at h
  · cases h
  · next hlarge =>
    split at h
    · cases h
    · split at h
      · cases h
        exact .none
      · next hkept =>
        cases h
        rw [not_or] at hkept
        have hdigits : (Decimal.digits n).takeWhile Char.isDigit = Decimal.digits n :=
          List.takeWhile_eq_self_iff.2 fun c hc => isDigit_of_mem_digits hc
        have hvalue : Decimal.value (Decimal.digits n) = n := Json.value_toDigits n
        have hne : (Decimal.digits n).isEmpty = false := by simp [Decimal.digits]
        refine .some n ?_
        simp only [portText, hdigits, hvalue, hlarge, hne, hkept.2, Nat.lt_irrefl, if_false,
          Bool.false_eq_true, or_self]

theorem IsPort.isHostChar (h : IsPort scheme number) : ∀ c ∈ number, IsHostChar c := by
  cases h with
  | none => exact fun c hc => nomatch hc
  | some n =>
      refine List.forall_mem_cons.2 ⟨by decide, fun c hc => ?_⟩
      exact (isNameChar_of_isDigit (isDigit_of_mem_digits hc)).isHostChar

/-! ## Authorities -/

/-- The user that an authority names, in normal form. -/
def userPart (s : List Char) : List Char :=
  match splitLast '@' s with
  | some (name, _) => userText name
  | none => []

/-- What an authority says about the host. -/
def addressPart (s : List Char) : List Char :=
  match splitLast '@' s with
  | some (_, address) => address
  | none => s

/-- The number that may stand after a host, in normal form. -/
def readPort (scheme : List Char) : Option (List Char) → Except UrlError (List Char)
  | some text => portText scheme text
  | none => .ok []

/-- An authority is put together from what is read of its parts. -/
theorem readAuthority_parts (h : readAuthority scheme s atEnd = .ok authority) :
    ∃ host number, authority = userPart s ++ host ++ number ∧
      readHost (isSpecial scheme) (splitPort false (addressPart s)).1 = .ok host ∧
      readPort scheme (splitPort false (addressPart s)).2 = .ok number := by
  rw [readAuthority] at h
  rw [userPart, addressPart]
  -- With a user and without, the same is done with the rest.
  cases hsplit : splitLast '@' s
  all_goals
    rw [hsplit] at h
    simp only at h ⊢
    have hhost := (except_of_refusal_ok (except_of_refusal_ok h).2).2
    clear h
    split at hhost
    all_goals
      next hspecial =>
      obtain ⟨host, hread, htail⟩ := except_of_bind_ok hhost
      have hnumber := (except_of_refusal_ok htail).2
      clear htail hhost
      split at hnumber
      all_goals
        next hdigits =>
        obtain ⟨number, hport, hwhole⟩ := except_of_bind_ok hnumber
        cases hwhole
        rw [hdigits]
        refine ⟨host, number, rfl, ?_, hport⟩
        simp only [readHost, hspecial, hread, if_true, Bool.false_eq_true, if_false]

/-- The parts that an authority in normal form is made up of. -/
structure IsAuthority (scheme user host number : List Char) : Prop where
  isUser : IsUser user
  isHost : IsHost (isSpecial scheme) host
  isPort : IsPort scheme number

theorem isUser_userPart (s : List Char) : IsUser (userPart s) := by
  rw [userPart]
  split
  · exact isUser_userText _
  · exact .none

theorem exists_isAuthority (h : readAuthority scheme s atEnd = .ok authority) :
    ∃ user host number, authority = user ++ host ++ number ∧
      IsAuthority scheme user host number := by
  obtain ⟨host, number, hwhole, hhost, hnumber⟩ := readAuthority_parts h
  refine ⟨userPart s, host, number, hwhole, isUser_userPart s, isHost_of_readHost hhost, ?_⟩
  cases hdigits : (splitPort false (addressPart s)).2 with
  | none =>
      rw [hdigits] at hnumber
      cases hnumber
      exact .none
  | some text =>
      rw [hdigits] at hnumber
      exact isPort_portText hnumber

namespace IsAuthority

theorem parts (h : IsAuthority scheme user host number) :
    userPart (user ++ host ++ number) = user ∧
      addressPart (user ++ host ++ number) = host ++ number := by
  have hnone : '@' ∉ host ++ number := by
    refine List.not_mem_append (fun hmem => ?_) fun hmem => ?_
    · exact (h.isHost.chars _ hmem).noUser rfl
    · exact (h.isPort.isHostChar _ hmem).noUser rfl
  rw [userPart, addressPart, List.append_assoc]
  cases h.isUser with
  | none =>
      rw [List.nil_append, splitLast_of_not_mem hnone]
      exact ⟨rfl, rfl⟩
  | some front hplain hagain =>
      rw [List.append_assoc, List.singleton_append, splitLast_append hnone]
      exact ⟨hagain, rfl⟩

theorem splitPort_eq (h : IsAuthority scheme user host number) :
    (splitPort false (host ++ number)).1 = host ∧
      readPort scheme (splitPort false (host ++ number)).2 = .ok number := by
  rw [splitPort_host h.isHost]
  cases h.isPort with
  | none => exact ⟨List.append_nil host, rfl⟩
  | some n hagain => exact ⟨List.append_nil host, hagain⟩

theorem isHostChar (h : IsAuthority scheme user host number) :
    ∀ c ∈ user ++ host ++ number, isUnwritable c = false ∧ endsAuthority true c = false := by
  have huser : ∀ c ∈ user, isUnwritable c = false ∧ endsAuthority true c = false := by
    cases h.isUser with
    | none => exact fun c hc => nomatch hc
    | some front hplain =>
        refine List.forall_mem_append.2 ⟨fun c hc => ?_, List.forall_mem_singleton.2 (by decide)⟩
        exact ⟨(hplain c hc).visible, (hplain c hc).inside⟩
  refine List.forall_mem_append.2 ⟨List.forall_mem_append.2 ⟨huser, fun c hc => ?_⟩, fun c hc => ?_⟩
  · exact ⟨(h.isHost.chars c hc).visible, (h.isHost.chars c hc).inside⟩
  · exact ⟨(h.isPort.isHostChar c hc).visible, (h.isPort.isHostChar c hc).inside⟩

end IsAuthority

/-- An authority in normal form is read as itself, if it is read at all. -/
theorem readAuthority_again (h : readAuthority scheme s atEnd = .ok authority) {atEnd' : Bool}
    (hagain : readAuthority scheme authority atEnd' = .ok again) : again = authority := by
  obtain ⟨user, host, number, rfl, hparts⟩ := exists_isAuthority h
  obtain ⟨host', number', rfl, hhost, hnumber⟩ := readAuthority_parts hagain
  rw [hparts.parts.2, hparts.splitPort_eq.1] at hhost
  rw [hparts.parts.2, hparts.splitPort_eq.2] at hnumber
  rw [hparts.parts.1, hparts.isHost.again _ hhost, Except.ok.inj hnumber]

/-- What an authority is written with can be seen and does not end it. -/
theorem inside_of_readAuthority (h : readAuthority scheme s atEnd = .ok authority) :
    ∀ c ∈ authority, isUnwritable c = false ∧ endsAuthority true c = false := by
  obtain ⟨user, host, number, rfl, hparts⟩ := exists_isAuthority h
  exact hparts.isHostChar

theorem ne_nil_of_readAuthority (h : readAuthority scheme s atEnd = .ok authority)
    (hspecial : isSpecial scheme = true) : authority ≠ [] := by
  obtain ⟨user, host, number, rfl, hparts⟩ := exists_isAuthority h
  exact List.append_ne_nil_of_left_ne_nil
    (List.append_ne_nil_of_right_ne_nil _ (hparts.isHost.ne_nil hspecial)) _

end Authority

end CaseAccess.Url
