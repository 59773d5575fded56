/-
SshAuthority/Proofs/Certificate/Warrant.lean

What the check of a certificate vouches for, whatever text it is given.

The check compares five values of a certificate that was read; all else rests on what the
readers have refused before. `Warrant` says of the packet itself what both together leave:
complete fields, whose signature, for which key, with which command, and when. It is put
together from one lemma for each reader on the way, from the text to the packet, from the
packet to the fields and the signature, and from the fields to the certificate.

Main result: a text that passes the check holds a packet with a warrant
(`warrant_of_checkText`).
-/
import SshAuthority.Proofs.Certificate.Fields
import SshAuthority.Proofs.Certificate.Options

namespace SshAuthority.Certificate

/-! ### The readers -/

/-- The packet in a text: that of a line or of an RFC 4716 block. -/
def packet? (t : Text) : Option Bytes := do
  match Armor.find? "CERTIFICATE" (some KeyAlgorithm.lineNames) (← Bytes.ofAscii? t) with
  | some (.line _ body _) | some (.block body _) => some body
  | _ => none

/-- The certificate of a text is the one in its packet. -/
theorem ofText?_eq_bind (t : Text) : ofText? t = (packet? t).bind ofBlob? := by
  unfold ofText? packet?
  rcases Bytes.ofAscii? t with - | b
  · rfl
  · simp only [Option.bind_eq_bind, Option.bind_some]
    rcases Armor.find? "CERTIFICATE" (some KeyAlgorithm.lineNames) b with - | content
    · rfl
    · cases content <;> rfl

/-- A certificate that was read from fields, part by part. -/
structure ReadFrom (c : Certificate) (f : CertificateFields KeyFields) : Prop where
  kind : kind? f.kind = some c.kind
  subject : ∃ m, f.subject.material? = .ok m ∧ c.subject = .ofMaterial m
  keyId : Utf8.decode? f.keyId = some c.keyId
  principals : ((Wire.strings? f.principals).bind (·.mapM Utf8.decode?)) = some c.principals
  validAfter : c.validAfter = f.validAfter
  validBefore : c.validBefore = f.validBefore
  options : criticalOptions? c.kind f.critical = some c.options
  extensions : extensions? c.kind f.extensions = some c.extensions
  signer : PublicKey.ofBlob f.signer = .ok c.signer

theorem readFrom_of_ofFields? {f : CertificateFields KeyFields} {c : Certificate}
    (h : ofFields? f = some c) : c.ReadFrom f := by
  simp only [ofFields?, Option.bind_eq_bind, Option.bind_eq_some_iff, Option.pure_def,
    Except.toOption_eq_some_iff] at h
  obtain ⟨kind, hkind, m, hm, keyId, hkeyId, names, hnames, principals, hprincipals, options,
    hoptions, extensions, hextensions, signer, hsigner, h⟩ := h
  cases h
  refine ⟨hkind, ⟨m, hm, rfl⟩, hkeyId, ?_, rfl, rfl, hoptions, hextensions, hsigner⟩
  rw [hnames, Option.bind_some, hprincipals]

/-- The packet of a certificate: fields, and a signature over all before it that holds. -/
theorem of_ofBlob? {b : Bytes} {c : Certificate} (h : ofBlob? b = some c) :
    ∃ f body signature, CertificateFields.read b = some (f, Wire.putString signature) ∧
      Wire.whole? Wire.string (Wire.putString signature) = some signature ∧
      b = body ++ Wire.putString signature ∧ c.ReadFrom f ∧
      c.signer.material.verify body signature = true := by
  obtain ⟨⟨f, rest⟩, hread, h⟩ := Option.bind_eq_some_iff.mp h
  obtain ⟨c', hc, h⟩ := Option.bind_eq_some_iff.mp h
  obtain ⟨signature, hsignature, h⟩ := Option.bind_eq_some_iff.mp h
  obtain ⟨-, rfl⟩ := Wire.whole?_string_iff.mp hsignature
  -- the reader leaves the end of the packet, so what is signed is all before the signature
  obtain ⟨body, rfl⟩ := CertificateFields.advances_read b f _ hread
  split at h
  · next hverify =>
    cases h
    rw [List.length_append, Nat.add_sub_cancel, List.take_left] at hverify
    exact ⟨f, body, signature, hread, hsignature, rfl, readFrom_of_ofFields? hc, hverify⟩
  · cases h

/-- The number of a kind is that of user certificates for user certificates only. -/
theorem kind?_eq_user_iff {n : Nat} : kind? n = some .user ↔ n = CertificateFields.userKind := by
  unfold kind?
  split
  · next h => simp [h]
  · next h => split <;> simp [h]

/-! ### The check -/

/-- A valid certificate is one for users, and the time lies in its window. -/
theorem of_checkValidity {c : Certificate} {time : Rat} (h : c.checkValidity time = .ok ()) :
    c.kind = .user ∧ (c.validAfter : Rat) ≤ time ∧ time < (c.validBefore : Rat) := by
  unfold checkValidity at h
  split at h
  · cases h
  split at h
  · cases h
  split at h
  · cases h
  · next hkind hafter hbefore =>
    exact ⟨Decidable.not_not.mp hkind, Rat.not_lt.mp hafter, Rat.not_le.mp hbefore⟩

/-- What the check asks of a certificate. -/
theorem of_check {c : Certificate} {subject authority : PublicKey} {command : Text} {time : Rat}
    (h : c.check subject authority command time = .ok ()) :
    c.signer.blob = authority.blob ∧ c.subject.material.blob = subject.blob ∧ command ≠ [] ∧
      c.forceCommand? = some command ∧ c.hasSourceAddress = false ∧
      c.checkValidity time = .ok () := by
  unfold check at h
  split at h
  · cases h
  split at h
  · cases h
  split at h
  · cases h
  split at h
  · cases h
  · next hsigner hsubject hcommand hsource =>
    rw [Bool.not_eq_true, Bool.or_eq_false_iff, List.isEmpty_eq_false_iff] at hcommand
    exact ⟨Decidable.not_not.mp hsigner, Decidable.not_not.mp hsubject, hcommand.1,
      Decidable.not_not.mp (of_decide_eq_false hcommand.2), Bool.not_eq_true _ ▸ hsource,
      Except.mapError_eq_ok_iff.mp h⟩

/-- The command that a certificate forces rests on its critical options. -/
theorem forceCommand?_congr {c c' : Certificate} {f f' : CertificateFields KeyFields}
    (h : c.ReadFrom f) (h' : c'.ReadFrom f') (hkind : f'.kind = f.kind)
    (hcritical : f'.critical = f.critical) : c'.forceCommand? = c.forceCommand? := by
  have hk : c'.kind = c.kind := by
    have hread := h'.kind
    rw [hkind, h.kind] at hread
    exact (Option.some.inj hread).symm
  have ho : c'.options = c.options := by
    have hread := h'.options
    rw [hk, hcritical, h.options] at hread
    exact (Option.some.inj hread).symm
  unfold forceCommand?
  rw [ho]

/-! ### The warrant -/

/-- What the check vouches for: a packet of complete fields and a signature over all before
it, by the authority, for the subject, with the one command, and valid at the time. -/
structure Warrant (packet : Bytes) (f : CertificateFields KeyFields) (body signature : Bytes)
    (subject authority : PublicKey) (command : Text) (time : Rat) : Prop where
  read : CertificateFields.read packet = some (f, Wire.putString signature)
  complete : Wire.whole? Wire.string (Wire.putString signature) = some signature
  parts : packet = body ++ Wire.putString signature
  kind : f.kind = CertificateFields.userKind
  subject : ∃ m, f.subject.material? = .ok m ∧ (PublicKey.ofMaterial m).blob = subject.blob
  signer : ∃ k, PublicKey.ofBlob f.signer = .ok k ∧ k.blob = authority.blob ∧
    k.material.verify body signature = true
  command_ne_nil : command ≠ []
  critical : ForcesOnly f.critical command
  /-- No extension that counts has the name of the option with the command. -/
  extensions : ∃ kept, extensions? .user f.extensions = some kept ∧ forceCommandName ∉ kept
  /-- With any other extensions that can be read, the command is the same. -/
  independent : ∀ b c, ofFields? { f with extensions := b } = some c → c.forceCommand? = some command
  notBefore : (f.validAfter : Rat) ≤ time
  notAfter : time < (f.validBefore : Rat)

/-- A certificate that was read from a packet and passes the check has a warrant. -/
theorem warrant_of_check {packet : Bytes} {c : Certificate} {subject authority : PublicKey}
    {command : Text} {time : Rat} (hc : ofBlob? packet = some c)
    (h : c.check subject authority command time = .ok ()) :
    ∃ f body signature, c.ReadFrom f ∧
      Warrant packet f body signature subject authority command time := by
  obtain ⟨f, body, signature, hread, hcomplete, hparts, hfrom, hverify⟩ := of_ofBlob? hc
  obtain ⟨hsigner, hsubject, hcommand, hforce, hsource, hvalidity⟩ := of_check h
  obtain ⟨hkind, hafter, hbefore⟩ := of_checkValidity hvalidity
  have hoptions := hfrom.options
  have hextensions := hfrom.extensions
  rw [hkind] at hoptions hextensions
  refine ⟨f, body, signature, hfrom, hread, hcomplete, hparts, ?kind, ?subject, ?signer, hcommand,
    forcesOnly_of_criticalOptions? hoptions hsource hforce, ?extensions, ?independent, ?_, ?_⟩
  case kind =>
    refine kind?_eq_user_iff.mp ?_
    rw [hfrom.kind, hkind]
  case subject =>
    obtain ⟨m, hm, hms⟩ := hfrom.subject
    rw [hms] at hsubject
    exact ⟨m, hm, PublicKey.blob_ofMaterial_of_blob hsubject⟩
  case signer => exact ⟨c.signer, hfrom.signer, hsigner, hverify⟩
  case extensions =>
    refine ⟨c.extensions, hextensions, fun hmem => ?_⟩
    exact forceCommandName_not_mem_knownExtensions (known_of_extensions? hextensions _ hmem)
  case independent =>
    intro b c' hc'
    rw [forceCommand?_congr hfrom (readFrom_of_ofFields? hc') rfl rfl, hforce]
  · rw [← hfrom.validAfter]
    exact hafter
  · rw [← hfrom.validBefore]
    exact hbefore

/-- The check of a text is that of the certificate in its packet. -/
theorem of_checkText {t : Text} {subject authority : PublicKey} {command : Text} {time : Rat}
    (h : checkText t subject authority command time = .ok ()) :
    ∃ packet c, packet? t = some packet ∧ ofBlob? packet = some c ∧
      c.check subject authority command time = .ok () := by
  unfold checkText at h
  rw [ofText?_eq_bind] at h
  split at h
  · cases h
  · next c hc =>
    obtain ⟨packet, hpacket, hblob⟩ := Option.bind_eq_some_iff.mp hc
    exact ⟨packet, c, hpacket, hblob, h⟩

/-- A text that passes the check holds a packet with a warrant. -/
theorem warrant_of_checkText {t : Text} {subject authority : PublicKey} {command : Text}
    {time : Rat} (h : checkText t subject authority command time = .ok ()) :
    ∃ packet f body signature, packet? t = some packet ∧
      Warrant packet f body signature subject authority command time := by
  obtain ⟨packet, c, hpacket, hblob, hcheck⟩ := of_checkText h
  obtain ⟨f, body, signature, -, hwarrant⟩ := warrant_of_check hblob hcheck
  exact ⟨packet, f, body, signature, hpacket, hwarrant⟩

/-! ### A certificate -/

namespace Sample

/-- The primes of an RSA key that is just long enough for its signatures. -/
def primes : Nat × Nat := (2 ^ 248 - 485, 3 * 2 ^ 246 + 317)

/-- The key of an authority. -/
def authority : PublicKey := .ofMaterial (.rsa 3 (primes.1 * primes.2))

/-- The key of a user. -/
def subject : PublicKey := .ofMaterial (.ed25519 ((List.range 32).map UInt8.ofNat))

/-- The fields of a certificate for the key of the user. -/
def fields : CertificateFields KeyMaterial where
  type := KeyAlgorithm.ed25519.certificateType
  nonce := [1, 2, 3, 4]
  subject := subject.material
  serial := 7
  kind := CertificateFields.userKind
  keyId := "oinit-ca"
  principals := []
  validAfter := 1000
  validBefore := 4600
  critical := CertificateFields.packOptions
    [(forceCommandName, Wire.putString "oinit-switch")]
  extensions := CertificateFields.packOptions [("permit-pty", [])]
  reserved := []
  signer := authority.blob

/-- The signature of the authority over the fields. -/
def signature : Bytes :=
  Wire.putString "rsa-sha2-256" ++ Wire.putString (Bytes.ofNat 62
    (0x879e432b05cf5e4a4278462ae88944ff1f4518e5ce853ff80671ecb4e9dcb2 * 2 ^ 248 +
      0x0a0e6f75a6dcf8d43772bb158ba9bb7238d3b4b60ab645f2659ad3cdae4b0b))

/-- The line of the certificate. -/
def text : Text :=
  Bytes.toLatin (fields.type ++ [0x20] ++
    Base64.encode (fields.encode ++ Wire.putString signature))

theorem checkText_text : checkText text subject authority "oinit-switch" 1000 = .ok () :=
  Except.eq_ok_of_isOk (by decide +kernel)

end Sample

/-- The certificate of the user has a warrant at the first second of its window. -/
theorem warrant_sample :
    checkText Sample.text Sample.subject Sample.authority "oinit-switch" 1000 = .ok () ∧
      ∃ packet f body signature, packet? Sample.text = some packet ∧
        Warrant packet f body signature Sample.subject Sample.authority "oinit-switch" 1000 :=
  ⟨Sample.checkText_text, warrant_of_checkText Sample.checkText_text⟩

end SshAuthority.Certificate
