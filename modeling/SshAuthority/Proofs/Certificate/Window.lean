/-
SshAuthority/Proofs/Certificate/Window.lean

From when until when a certificate is valid.

A certificate for a number of seconds begins now and ends that much later; one that is bound
to the token ends where the token does, cut to whole seconds, so it never outlives it. What
a token says of its end may be any JSON value: only of a number there is an exact value
(`Json.number?`), and this is compared with the range of certificates as it is, without
rounding. The seconds are then written into fields of eight octets, which refuse what does
not fit instead of wrapping it (`Draft.of_uint64?`).

What carries the proof is that the end of a window is known exactly (`Token.expiry_eq_ok_iff`)
and that nothing after it can turn a window that is refused into one that is issued. A decoder
that does not catch the fault of a part that nests too deep is the one thing that has no error
of its own here (`Token.Escapes`); with a decoder that refuses such a part there is none.

Main result: `window_of_issueAt`, for what is issued and for each way to be refused.
-/
import SshAuthority.Proofs.Certificate.Layout
import SshAuthority.Proofs.Number.Truncation

namespace SshAuthority

/-! ### Numbers -/

/-- The exact value of a number. What is undefined or infinite has none, nor has what is no number,
such as a truth value. -/
def Json.number? : Json → Option Rat
  | .int n => some n
  | .real x => x.toRat?
  | _ => none

theorem Rat.wholePart_intCast (n : Int) : Rat.wholePart n = n :=
  Int.tdiv_one n

namespace Token

/-! ### The end of a token -/

/-- The number of seconds at which a token says that it expires, if it says so with a number. -/
def expiryNumber? (decoder : Decoder) (token : Text) : Option Rat :=
  (claims decoder token).toOption.bind fun c => (Table.get? "exp" c).bind Json.number?

/-- Whether the fault of a part that nests too deep gets out of the decoder. -/
def Escapes (decoder : Decoder) (token : Text) : Prop := claims decoder token = .error .tooDeep

namespace Claims

variable {x : Rat} {n : Int}

theorem second?_eq_some_iff :
    second? x = some n ↔ 0 ≤ x ∧ x ≤ (maxSecond : Rat) ∧ n = Rat.wholePart x := by
  unfold second?
  split
  · next h => simp [h, eq_comm]
  · next h => exact ⟨fun hn => absurd hn (by simp), fun hn => absurd ⟨hn.1, hn.2.1⟩ h⟩

/-- A whole number is in range as it is written, without being cut. -/
theorem second?_intCast (n : Int) :
    second? n = if 0 ≤ n && n ≤ maxSecond then some n else none := by
  have hlow : (0 : Rat) ≤ n ↔ 0 ≤ n := Rat.intCast_nonneg
  have hhigh : (n : Rat) ≤ (maxSecond : Rat) ↔ n ≤ maxSecond := by
    rw [← Rat.intCast_natCast]
    exact Rat.intCast_le_intCast
  unfold second?
  simp only [Rat.wholePart_intCast, hlow, hhigh, Bool.and_eq_true, decide_eq_true_eq]

/-- The claims have an end if they name one by a number in the range of certificates. -/
theorem expiry_eq_ok_iff {c : Claims} :
    c.expiry = .ok n ↔ ((Table.get? "exp" c).bind Json.number?).bind second? = some n := by
  unfold expiry
  rcases Table.get? "exp" c with - | value
  · simp
  cases value
  case int m =>
    rw [Option.bind_some, Json.number?, Option.bind_some, second?_intCast]
    dsimp only
    split <;> simp
  case real x =>
    rw [Option.bind_some, Json.number?]
    dsimp only
    rcases x.toRat?.bind second? with - | m <;> simp
  all_goals simp [Json.number?]

end Claims

variable {decoder : Decoder} {token : Text}

/-- A part is read, if only as one without entries, or its fault gets out of the decoder. -/
theorem entries?_cases (deep : DeepPart) (part : Bytes) :
    (∃ entries, entries? deep part = .ok entries) ∨
      deep = .uncaught ∧ entries? deep part = .error .tooDeep := by
  unfold entries?
  split
  · exact .inl ⟨_, rfl⟩
  · cases deep with
    | refused => exact .inl ⟨_, rfl⟩
    | uncaught => exact .inr ⟨rfl, rfl⟩
  · exact .inl ⟨_, rfl⟩

/-- So it is with the claims: nothing else goes wrong with octets. -/
theorem ofOctets?_cases (decoder : Decoder) (octets : Bytes) :
    (∃ c, ofOctets? decoder octets = .ok c) ∨
      (decoder.header = .uncaught ∨ decoder.payload = .uncaught) ∧
        ofOctets? decoder octets = .error .tooDeep := by
  unfold ofOctets?
  rcases parts? octets with - | ⟨header, payload, signature⟩
  · exact .inl ⟨_, rfl⟩
  dsimp only
  rcases entries?_cases decoder.header header with ⟨parameters, hheader⟩ | ⟨hdeep, hheader⟩
  · rw [hheader]
    rcases parameters with - | parameters
    · exact .inl ⟨_, rfl⟩
    dsimp only [bind, Except.bind]
    split
    · exact (entries?_cases decoder.payload payload).imp_right fun h => ⟨.inr h.1, h.2⟩
    · exact .inl ⟨_, rfl⟩
  · rw [hheader]
    exact .inr ⟨.inl hdeep, rfl⟩

/-- Of a token in UTF-8 the claims are known, if only that there are none, unless the decoder lets
a fault out. -/
theorem exists_claims (h : (Utf8.encode? token).isSome = true) (hcaught : ¬Escapes decoder token) :
    ∃ c, claims decoder token = .ok c := by
  obtain ⟨octets, hoctets⟩ := Option.isSome_iff_exists.mp h
  unfold Escapes at hcaught
  unfold claims at hcaught ⊢
  rw [hoctets] at hcaught ⊢
  dsimp only at hcaught ⊢
  rcases ofOctets?_cases decoder octets with ⟨c, hc⟩ | ⟨-, hdeep⟩
  · exact ⟨c.getD [], by rw [hc]; rfl⟩
  · refine absurd ?_ hcaught
    rw [hdeep]
    rfl

/-- A decoder that refuses what nests too deep lets no fault out. -/
theorem not_escapes_of_refused (hheader : decoder.header = .refused)
    (hpayload : decoder.payload = .refused) : ¬Escapes decoder token := by
  unfold Escapes claims
  split
  · exact fun h => nomatch h
  · next octets hoctets =>
    rcases ofOctets?_cases decoder octets with ⟨c, hc⟩ | ⟨hdeep | hdeep, -⟩
    · rw [hc]
      exact fun h => nomatch h
    · rw [hheader] at hdeep
      cases hdeep
    · rw [hpayload] at hdeep
      cases hdeep

/-- The end of a token is the whole part of its number, if that is in the range of certificates. -/
theorem expiry_eq_ok_iff {n : Int} :
    expiry decoder token = .ok n ↔
      ∃ x, expiryNumber? decoder token = some x ∧ 0 ≤ x ∧ x ≤ (Claims.maxSecond : Rat) ∧
        n = Rat.wholePart x := by
  have hnumber : expiry decoder token = .ok n ↔
      (expiryNumber? decoder token).bind Claims.second? = some n := by
    unfold expiry expiryNumber?
    rcases claims decoder token with d | c
    · constructor <;> intro h <;> cases h
    · show c.expiry.mapError Failure.signing = .ok n ↔ _
      rw [Except.mapError_eq_ok_iff, Claims.expiry_eq_ok_iff]
      rfl
  rw [hnumber, Option.bind_eq_some_iff]
  simp only [Claims.second?_eq_some_iff]

/-- What goes wrong in looking for the end of a token in UTF-8 is a failure of the signing. -/
theorem signing_of_expiry {f : Failure} (htoken : (Utf8.encode? token).isSome = true)
    (hcaught : ¬Escapes decoder token) (h : expiry decoder token = .error f) :
    ∃ fault, f = .signing fault := by
  obtain ⟨c, hc⟩ := exists_claims htoken hcaught
  have hexpiry : expiry decoder token = c.expiry.mapError Failure.signing := by
    unfold expiry
    rw [hc]
    rfl
  rw [hexpiry] at h
  obtain ⟨fault, -, hfault⟩ := Except.mapError_eq_error_iff.mp h
  exact ⟨fault, hfault.symm⟩

/-- So it is in looking for a window. -/
theorem signing_of_validityWindow {duration now : Int} {f : Failure}
    (htoken : (Utf8.encode? token).isSome = true) (hcaught : ¬Escapes decoder token)
    (h : validityWindow decoder duration token now = .error f) : ∃ fault, f = .signing fault := by
  unfold validityWindow at h
  split at h
  · rcases Except.bind_eq_error_iff.mp h with h | ⟨n, -, h⟩
    · exact signing_of_expiry htoken hcaught h
    · cases h
  · cases h

theorem exists_keyId (h : (Utf8.encode? token).isSome = true) (hcaught : ¬Escapes decoder token) :
    ∃ keyId, Token.keyId decoder token = .ok keyId := by
  obtain ⟨c, hc⟩ := exists_claims h hcaught
  unfold keyId
  rw [hc]
  exact ⟨_, rfl⟩

end Token

/-! ### Refusals -/

/-- A draft that is signed ends within the range of certificates. -/
theorem Draft.range_of_sign {d : Draft} {key : PrivateKey} {oneTime : Nat} {c : SignedCertificate}
    (h : d.sign key oneTime = .ok c) :
    (0 ≤ d.validAfter ∧ d.validAfter < 2 ^ 64) ∧ 0 ≤ d.validBefore ∧ d.validBefore < 2 ^ 64 := by
  obtain ⟨f, -, hf, -⟩ := Draft.sign_eq_ok_iff.mp h
  obtain ⟨-, -, -, -, hafter, hbefore, -⟩ := Draft.of_fields hf
  obtain ⟨hafter, hafterLt⟩ := Draft.of_uint64? hafter
  obtain ⟨hbefore, hbeforeLt⟩ := Draft.of_uint64? hbefore
  omega

namespace Issue

/-- A failure that the issuing of certificates has errors for. -/
def Expected (f : Failure) : Prop := (∃ fault, f = .signing fault) ∨ ∃ fault, f = .validation fault

variable {decoder : Token.Decoder} {info : HostInfo} {subject : PublicKey} {token command : Text}
  {now : Int} {circumstances : Circumstances}

/-- Without a window nothing is issued. -/
theorem issueAt_of_window_eq_error {f : Failure} (hcommand : command ≠ [])
    (hwindow : Token.validityWindow decoder info.duration token now = .error f) :
    issueAt decoder info subject token command now circumstances = .error f := by
  unfold issueAt
  rw [if_neg fun hempty => hcommand (List.isEmpty_iff.mp hempty), hwindow]
  rfl

/-- A fault that the decoder lets out ends the issuing: where the group leaves the end to the token, in
looking for it, and elsewhere in looking for the name of the user. -/
theorem issueAt_of_escapes (hcommand : command ≠ []) (hduration : 0 ≤ info.duration)
    (hescapes : Token.Escapes decoder token) :
    issueAt decoder info subject token command now circumstances = .error (.defect .tooDeep) := by
  unfold Token.Escapes at hescapes
  by_cases hzero : info.duration = 0
  · refine issueAt_of_window_eq_error hcommand ?_
    unfold Token.validityWindow Token.expiry
    rw [if_pos hzero, hescapes]
    rfl
  · have hwindow : Token.validityWindow decoder info.duration token now =
        .ok (now, now + info.duration) := if_neg hzero
    unfold issueAt Token.keyId
    rw [if_neg fun hempty => hcommand (List.isEmpty_iff.mp hempty), hwindow, hescapes]
    show (if now + info.duration ≤ now then _ else _) = _
    rw [if_neg (by omega)]
    rfl

/-- Nor in an empty one. -/
theorem issueAt_of_window_empty {validAfter validBefore : Int} (hcommand : command ≠ [])
    (hwindow : Token.validityWindow decoder info.duration token now = .ok (validAfter, validBefore))
    (hempty : validBefore ≤ validAfter) :
    issueAt decoder info subject token command now circumstances =
      .error (.validation (.emptyWindow validAfter validBefore)) := by
  unfold issueAt
  rw [if_neg fun hempty => hcommand (List.isEmpty_iff.mp hempty), hwindow]
  show (if validBefore ≤ validAfter then _ else _) = _
  rw [if_pos hempty]
  rfl

/-- For a token in UTF-8 nothing goes wrong but what is expected and what the decoder lets out. -/
theorem expected_of_issueAt {f : Failure} (htoken : (Utf8.encode? token).isSome = true)
    (hcaught : ¬Token.Escapes decoder token)
    (h : issueAt decoder info subject token command now circumstances = .error f) : Expected f := by
  unfold issueAt at h
  split at h
  · cases h
    exact .inl ⟨_, rfl⟩
  rcases Except.bind_eq_error_iff.mp h with h | ⟨⟨validAfter, validBefore⟩, -, h⟩
  · exact .inl (Token.signing_of_validityWindow htoken hcaught h)
  dsimp only at h
  split at h
  · cases h
    exact .inr ⟨_, rfl⟩
  rcases Except.bind_eq_error_iff.mp h with h | ⟨keyId, -, h⟩
  · obtain ⟨keyId, hkeyId⟩ := Token.exists_keyId htoken hcaught
    rw [hkeyId] at h
    cases h
  rcases Except.bind_eq_error_iff.mp h with h | ⟨certificate, -, h⟩
  · obtain ⟨cause, -, rfl⟩ := Except.mapError_eq_error_iff.mp h
    exact .inl ⟨_, rfl⟩
  rcases Except.bind_eq_error_iff.mp h with h | ⟨⟨⟩, -, h⟩
  · obtain ⟨fault, -, rfl⟩ := Except.mapError_eq_error_iff.mp h
    exact .inr ⟨_, rfl⟩
  · cases h

/-- A window whose end is out of range is refused by the signing. -/
theorem issueAt_of_window_beyond {validAfter validBefore : Int}
    (htoken : (Utf8.encode? token).isSome = true) (hcaught : ¬Token.Escapes decoder token)
    (hcommand : command ≠ [])
    (hwindow : Token.validityWindow decoder info.duration token now = .ok (validAfter, validBefore))
    (horder : validAfter < validBefore) (hbeyond : 2 ^ 64 ≤ validBefore) :
    ∃ fault, issueAt decoder info subject token command now circumstances = .error (.signing fault) := by
  obtain ⟨keyId, hkeyId⟩ := Token.exists_keyId htoken hcaught
  rcases hsign : Draft.sign ⟨subject, circumstances.nonce, circumstances.serial, keyId, validAfter,
    validBefore, command⟩ info.userKeys.privateKey.value circumstances.oneTime with cause | certificate
  · refine ⟨.construction cause, ?_⟩
    rw [issueAt_of_window hcommand hwindow horder hkeyId, hsign]
    rfl
  · -- nothing is written that does not fit
    obtain ⟨-, -, hfits⟩ := Draft.range_of_sign hsign
    exact absurd hbeyond (Int.not_le.mpr hfits)

/-! ### Windows -/

/-- The window of a certificate that is issued now: it begins now, lasts as long as the group says or,
where the group leaves it to the token, ends with the last whole second of the token, and is what
the text of the certificate says. -/
structure Window (decoder : Token.Decoder) (info : HostInfo) (token : Text) (now : Int)
    (c : IssuedCertificate) : Prop where
  validAfter : c.validAfter = now
  range : 0 ≤ now ∧ now < c.validBefore ∧ c.validBefore ≤ Token.Claims.maxSecond
  lasting : info.duration ≠ 0 → c.validBefore = now + info.duration
  bound : info.duration = 0 → ∃ x, Token.expiryNumber? decoder token = some x ∧
    (c.validBefore : Rat) ≤ x ∧ x < (c.validBefore : Rat) + 1
  written : ∃ certificate, Certificate.ofText? c.certificate.text = some certificate ∧
    (certificate.validAfter : Int) = c.validAfter ∧ (certificate.validBefore : Int) = c.validBefore

theorem Window.of_issueAt {c : IssuedCertificate}
    (h : issueAt decoder info subject token command now circumstances = .ok c) :
    Window decoder info token now c := by
  obtain ⟨-, hwindow, horder, -, -, hsign, -⟩ := issueAt_eq_ok_iff.mp h
  obtain ⟨⟨hafter, -⟩, -, hbefore⟩ := Draft.range_of_sign hsign
  obtain ⟨certificate, htext, hreads, -⟩ := good_of_issueAt h
  have hwritten : ∃ certificate, Certificate.ofText? c.certificate.text = some certificate ∧
      (certificate.validAfter : Int) = c.validAfter ∧
      (certificate.validBefore : Int) = c.validBefore :=
    ⟨certificate, htext, hreads.window⟩
  have hmax : c.validBefore ≤ Token.Claims.maxSecond := Int.le_of_lt_add_one hbefore
  unfold Token.validityWindow at hwindow
  split at hwindow
  · next hzero =>
    obtain ⟨n, hn, heq⟩ := Except.bind_eq_ok_iff.mp hwindow
    obtain ⟨hnow, hend⟩ := Prod.mk.inj (Except.pure_eq_ok_iff.mp heq)
    obtain ⟨x, hx, hnonneg, -, hpart⟩ := Token.expiry_eq_ok_iff.mp hn
    rw [hend] at hpart
    rw [← hnow] at hafter horder
    exact ⟨hnow.symm, ⟨hafter, horder, hmax⟩, fun hne => absurd hzero hne,
      fun _ => ⟨x, hx, (Rat.truncates_iff.mpr hpart).of_nonneg hnonneg⟩, hwritten⟩
  · next hne =>
    obtain ⟨hnow, hend⟩ := Prod.mk.inj (Except.ok.inj hwindow)
    rw [← hnow] at hafter horder
    exact ⟨hnow.symm, ⟨hafter, horder, hmax⟩, fun _ => hend.symm, fun hzero => absurd hzero hne,
      hwritten⟩

/-- For every decoder and every token in UTF-8: what is issued has its window. Unless the decoder lets
out the fault of a part that nests too deep, what goes wrong is expected. Where the group leaves the
end to the token, a token without a number in the range of certificates then fails in the signing, and
one that ends now or before leaves an empty window; where the group says how long, an end beyond the
range fails in the signing. A fault that is let out is all that there is. -/
theorem window_of_issueAt (decoder : Token.Decoder) (info : HostInfo) (subject : PublicKey)
    (token command : Text) (now : Int) (circumstances : Circumstances)
    (htoken : (Utf8.encode? token).isSome = true) :
    (∀ c, issueAt decoder info subject token command now circumstances = .ok c →
      Window decoder info token now c) ∧
    (¬Token.Escapes decoder token →
      (∀ f, issueAt decoder info subject token command now circumstances = .error f →
        Expected f) ∧
      (command ≠ [] → info.duration = 0 →
        ((∀ x, Token.expiryNumber? decoder token = some x →
            x < 0 ∨ (Token.Claims.maxSecond : Rat) < x) →
          ∃ fault, issueAt decoder info subject token command now circumstances =
            .error (.signing fault)) ∧
        ∀ x n, Token.expiryNumber? decoder token = some x → 0 ≤ x →
          x ≤ (Token.Claims.maxSecond : Rat) → Rat.Truncates x n → n ≤ now →
          ∃ fault, issueAt decoder info subject token command now circumstances =
            .error (.validation fault)) ∧
      (command ≠ [] → 0 < info.duration → Token.Claims.maxSecond < now + info.duration →
        ∃ fault, issueAt decoder info subject token command now circumstances =
          .error (.signing fault))) ∧
    (Token.Escapes decoder token → command ≠ [] → 0 ≤ info.duration →
      issueAt decoder info subject token command now circumstances = .error (.defect .tooDeep)) := by
  refine ⟨fun c => Window.of_issueAt, fun hcaught => ⟨fun f => expected_of_issueAt htoken hcaught,
    fun hcommand hzero => ?_, fun hcommand hpos hbeyond => ?_⟩,
    fun hescapes hcommand hduration => issueAt_of_escapes hcommand hduration hescapes⟩
  · have hwindow : Token.validityWindow decoder info.duration token now =
        (Token.expiry decoder token).map fun n => (now, n) := if_pos hzero
    refine ⟨fun hout => ?_, fun x n hx hnonneg hmax hpart hn => ?_⟩
    · rcases hexpiry : Token.expiry decoder token with f | n
      · rw [hexpiry] at hwindow
        obtain ⟨fault, rfl⟩ := Token.signing_of_expiry htoken hcaught hexpiry
        exact ⟨fault, issueAt_of_window_eq_error hcommand hwindow⟩
      · obtain ⟨x, hx, hnonneg, hmax, -⟩ := Token.expiry_eq_ok_iff.mp hexpiry
        rcases hout x hx with hlow | hhigh
        · exact absurd hlow (Rat.not_lt.mpr hnonneg)
        · exact absurd hhigh (Rat.not_lt.mpr hmax)
    · have hexpiry := Token.expiry_eq_ok_iff.mpr ⟨x, hx, hnonneg, hmax, Rat.truncates_iff.mp hpart⟩
      rw [hexpiry] at hwindow
      exact ⟨_, issueAt_of_window_empty hcommand hwindow hn⟩
  · have hwindow : Token.validityWindow decoder info.duration token now =
        .ok (now, now + info.duration) := if_neg (by omega)
    exact issueAt_of_window_beyond htoken hcaught hcommand hwindow (by omega)
      (Int.add_one_le_of_lt hbeyond)

/-! ### Tokens at the edges -/

namespace Sample

/-- The group of the sample, whose users are given the time of their tokens. -/
def bound : HostInfo := { Sample.info [] with duration := 0 }

/-- A token whose number is the last second of certificates as it is written, with a point, and the
second after it as a floating point number. -/
def roundedToken : Text := "eyJhbGciOiJub25lIn0.eyJleHAiOjE4NDQ2NzQ0MDczNzA5NTUxNjE1LjB9.AAAA"

/-- A token that ends half a second from now. -/
def spentToken : Text := "eyJhbGciOiJub25lIn0.eyJleHAiOjEwMDAuNX0.AAAA"

/-- A token whose header is nothing but brackets that open, more than are read. -/
def deepToken : Text :=
  (List.replicate 334 (Text.ofString "W1tb")).flatten ++ Text.ofString ".e30.AAAA"

/-- A decoder that lets out what is wrong with such a header. -/
def leaky : Token.Decoder := { Sample.decoder with header := .uncaught }

theorem not_escapes (token : Text) : ¬Token.Escapes Sample.decoder token :=
  Token.not_escapes_of_refused rfl rfl

end Sample

/-- The certificate of the user has its window; a number that is rounded out of the range is refused by
the signing, and one within the present second leaves an empty window. A token whose header nests too
deep has no end for a decoder that refuses it, and ends the issuing if its fault gets out. -/
theorem window_sample :
    (issueAt Sample.decoder (Sample.info []) Certificate.Sample.subject "t" "oinit-switch" 1000
        Sample.circumstances = .ok Sample.issued ∧
      Window Sample.decoder (Sample.info []) "t" 1000 Sample.issued) ∧
    (Token.expiryNumber? Sample.decoder Sample.roundedToken = some (2 ^ 64 : Nat) ∧
      ∃ fault, issueAt Sample.decoder Sample.bound Certificate.Sample.subject Sample.roundedToken
        "oinit-switch" 1000 Sample.circumstances = .error (.signing fault)) ∧
    (Token.expiryNumber? Sample.decoder Sample.spentToken = some (mkRat 2001 2) ∧
      ∃ fault, issueAt Sample.decoder Sample.bound Certificate.Sample.subject Sample.spentToken
        "oinit-switch" 1000 Sample.circumstances = .error (.validation fault)) ∧
    (∃ fault, issueAt Sample.decoder Sample.bound Certificate.Sample.subject Sample.deepToken
        "oinit-switch" 1000 Sample.circumstances = .error (.signing fault)) ∧
    issueAt Sample.leaky Sample.bound Certificate.Sample.subject Sample.deepToken "oinit-switch" 1000
      Sample.circumstances = .error (.defect .tooDeep) := by
  have hissued := Sample.issueAt_eq []
  have hrounded : Token.expiryNumber? Sample.decoder Sample.roundedToken = some (2 ^ 64 : Nat) := by
    decide +kernel
  have hspent : Token.expiryNumber? Sample.decoder Sample.spentToken = some (mkRat 2001 2) := by
    decide +kernel
  have hdeep : Token.expiryNumber? Sample.decoder Sample.deepToken = none := by decide +kernel
  refine ⟨⟨hissued, ?_⟩, ⟨hrounded, ?_⟩, ⟨hspent, ?_⟩, ?_, ?_⟩
  · exact (window_of_issueAt _ _ _ _ _ _ _ (by decide)).1 _ hissued
  · obtain ⟨-, hcaught, -⟩ := window_of_issueAt Sample.decoder Sample.bound
      Certificate.Sample.subject Sample.roundedToken "oinit-switch" 1000 Sample.circumstances
      (by decide)
    obtain ⟨-, hzero, -⟩ := hcaught (Sample.not_escapes _)
    refine (hzero (by decide) rfl).1 fun x hx => .inr ?_
    obtain rfl : (2 ^ 64 : Nat) = x := Option.some.inj (hrounded.symm.trans hx)
    decide +kernel
  · obtain ⟨-, hcaught, -⟩ := window_of_issueAt Sample.decoder Sample.bound
      Certificate.Sample.subject Sample.spentToken "oinit-switch" 1000 Sample.circumstances
      (by decide)
    obtain ⟨-, hzero, -⟩ := hcaught (Sample.not_escapes _)
    exact (hzero (by decide) rfl).2 _ 1000 hspent (by decide +kernel) (by decide +kernel)
      (Rat.truncates_iff.mpr (by decide +kernel)) (by decide)
  · obtain ⟨-, hcaught, -⟩ := window_of_issueAt Sample.decoder Sample.bound
      Certificate.Sample.subject Sample.deepToken "oinit-switch" 1000 Sample.circumstances
      (by decide +kernel)
    obtain ⟨-, hzero, -⟩ := hcaught (Sample.not_escapes _)
    refine (hzero (by decide) rfl).1 fun x hx => ?_
    rw [hdeep] at hx
    cases hx
  · obtain ⟨-, -, hescapes⟩ := window_of_issueAt Sample.leaky Sample.bound
      Certificate.Sample.subject Sample.deepToken "oinit-switch" 1000 Sample.circumstances
      (by decide +kernel)
    exact hescapes (Except.error?_eq_some_iff.mp (by decide +kernel)) (by decide) (by decide)

end Issue

end SshAuthority
