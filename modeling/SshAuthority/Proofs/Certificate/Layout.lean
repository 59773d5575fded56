/-
SshAuthority/Proofs/Certificate/Layout.lean

The text of every certificate that is issued, octet by octet.

The packet is read with the reader of any certificate, and each field is traced back to
the draft that it comes of (`Layout`). The one field that is not in the draft, the signer,
is that of the private key; the check after signing has read it back and compared it with
the public key of the group.

Main results: `layout_of_sign` for drafts, and `layout_of_issueAt` for what is issued, for
every key, token, command, time and chance.
-/
import SshAuthority.Certificate.Issue
import SshAuthority.Proofs.Certificate.Warrant
import SshAuthority.Proofs.Encoding.Armor
import SshAuthority.Proofs.Text.Utf8

namespace SshAuthority

/-! ### The line -/

/-- The packet in the text of a certificate is the packet of the certificate. -/
theorem SignedCertificate.packet?_text {c : SignedCertificate} {a : KeyAlgorithm}
    (ht : c.type = a.certificateType) : Certificate.packet? c.text = some c.blob := by
  have hmem := a.certificateType_mem_lineNames
  obtain ⟨x, rest, heq, hx, hvisible⟩ := KeyAlgorithm.exists_cons_of_mem_lineNames hmem
  -- the blob has a signature field of four octets at least
  have hb : c.blob ≠ [] := by
    intro hnil
    have hlength := congrArg List.length hnil
    rw [blob, List.length_append, Wire.length_putString] at hlength
    simp at hlength
  have hascii : ∀ y ∈ a.certificateType ++ [0x20] ++ Base64.encode c.blob, y < 0x80 :=
    fun y hy => (Armor.of_mem_line hvisible y hy).1
  rw [heq] at hvisible hmem
  unfold Certificate.packet?
  rw [text, ht, Bytes.ofAscii?_toLatin hascii, heq, Option.bind_eq_bind, Option.bind_some,
    Armor.find?_line hx hvisible hmem hb]

/-- What is in the text of a certificate: one line of two words, in which the reader of
certificates finds the packet, and in the packet the fields of a draft and a signature. -/
structure SignedCertificate.Layout (c : SignedCertificate) (d : Draft) (signer : Bytes)
    (f : CertificateFields KeyFields) : Prop where
  line : c.text =
    Bytes.toLatin (d.subject.algorithm.certificateType ++ [0x20] ++ Base64.encode c.blob)
  visible : ∀ x ∈ d.subject.algorithm.certificateType ++ Base64.encode c.blob, Bytes.IsVisible x
  found : Certificate.packet? c.text = some c.blob
  read : CertificateFields.read c.blob = some (f, Wire.putString c.signature)
  complete : Wire.whole? Wire.string (Wire.putString c.signature) = some c.signature
  type : f.type = d.subject.algorithm.certificateType
  nonce : f.nonce = d.nonce
  subject : f.subject = d.subject.material.fields
  serial : (f.serial : Int) = d.serial ∧ f.serial < 2 ^ 64
  kind : f.kind = 1
  keyId : Utf8.decode? f.keyId = some d.keyId
  principals : Wire.strings? f.principals = some []
  validAfter : (f.validAfter : Int) = d.validAfter ∧ f.validAfter < 2 ^ 64
  validBefore : (f.validBefore : Int) = d.validBefore ∧ f.validBefore < 2 ^ 64
  critical : ∃ data octets, CertificateFields.entries? f.critical =
      some [(Certificate.forceCommandName, data)] ∧
    Wire.whole? Wire.string data = some octets ∧ Utf8.decode? octets = some d.command
  extensions : CertificateFields.entries? f.extensions = some [(Bytes.ofString "permit-pty", [])]
  reserved : f.reserved = []
  signer : f.signer = signer

namespace SignedCertificate.Layout

variable {c : SignedCertificate} {d : Draft} {signer : Bytes} {f : CertificateFields KeyFields}

/-- The one critical option is the command. -/
theorem criticalOptions?_eq (h : c.Layout d signer f) :
    Certificate.criticalOptions? .user f.critical = some [.forceCommand d.command] := by
  obtain ⟨data, octets, hentries, hwhole, hdecode⟩ := h.critical
  have hoption := Certificate.criticalOption?_forceCommand hwhole hdecode
  rw [Certificate.criticalOptions?, Certificate.criticalOptionsWithin?_eq,
    show CertificateFields.entriesWithin? _ _ = _ from hentries, Option.bind_some]
  exact mapM_cons_eq_some_iff.mpr ⟨_, [], hoption, rfl, rfl⟩

/-- The one extension is the terminal. -/
theorem extensions?_eq (h : c.Layout d signer f) :
    Certificate.extensions? .user f.extensions = some [Bytes.ofString "permit-pty"] := by
  obtain ⟨-, hsection⟩ := CertificateFields.entries?_eq_some_iff.mp h.extensions
  rw [hsection, Certificate.extensions?_terminal]

end SignedCertificate.Layout

/-! ### Drafts -/

namespace Draft

/-- A number in a field is the number that it was. -/
theorem of_uint64? {n : Int} {m : Nat} (h : uint64? n = .ok m) : (m : Int) = n ∧ m < 2 ^ 64 := by
  unfold uint64? at h
  split at h
  · next hn =>
    cases h
    rw [Bool.and_eq_true, decide_eq_true_iff, decide_eq_true_iff] at hn
    omega
  · cases h

/-- A text in a field is the text that it was. -/
theorem of_octets? {t : Text} {b : Bytes} (h : octets? t = .ok b) : Utf8.decode? b = some t := by
  unfold octets? at h
  split at h
  · next b' hb =>
    cases h
    exact Utf8.decode?_of_encode? hb
  · cases h

/-- The fields that come of a draft, one by one. -/
theorem of_fields {d : Draft} {signer : PublicKey} {f : CertificateFields KeyMaterial}
    (h : d.fields signer = .ok f) :
    ∃ command, octets? d.command = .ok command ∧ uint64? d.serial = .ok f.serial ∧
      octets? d.keyId = .ok f.keyId ∧ uint64? d.validAfter = .ok f.validAfter ∧
      uint64? d.validBefore = .ok f.validBefore ∧
      f.type = d.subject.algorithm.certificateType ∧ f.nonce = d.nonce ∧
      f.subject = d.subject.material ∧ f.kind = CertificateFields.userKind ∧
      f.principals = [] ∧
      f.critical = CertificateFields.packOptions
        [(Certificate.forceCommandName, Wire.putString command)] ∧
      f.extensions = CertificateFields.packOptions [("permit-pty", [])] ∧ f.reserved = [] ∧
      f.signer = signer.blob := by
  simp only [fields, Except.bind_eq_ok_iff, Except.pure_eq_ok_iff] at h
  obtain ⟨command, hcommand, serial, hserial, keyId, hkeyId, validAfter, hafter, validBefore,
    hbefore, rfl⟩ := h
  exact ⟨command, hcommand, hserial, hkeyId, hafter, hbefore, rfl, rfl, rfl, rfl, rfl, rfl, rfl,
    rfl, rfl⟩

/-- A signed draft is its fields with a signature of the key, and all of it can be written. -/
theorem sign_eq_ok_iff {d : Draft} {key : PrivateKey} {oneTime : Nat} {c : SignedCertificate} :
    d.sign key oneTime = .ok c ↔ ∃ f s, d.fields key.publicPart = .ok f ∧ f.fits = true ∧
      key.sign? oneTime f.encode = some s ∧ Wire.fits s = true ∧ c = ⟨f.type, f.encode, s⟩ := by
  constructor
  · intro h
    obtain ⟨f, hf, h⟩ := Except.bind_eq_ok_iff.mp h
    unfold CertificateFields.sign at h
    split at h
    · next hfits =>
      split at h
      · next s hs =>
        split at h
        · next hsignature =>
          cases h
          exact ⟨f, s, hf, hfits, hs, hsignature, rfl⟩
        · cases h
      · cases h
    · cases h
  · rintro ⟨f, s, hf, hfits, hs, hsignature, rfl⟩
    refine Except.bind_eq_ok_iff.mpr ⟨f, hf, ?_⟩
    unfold CertificateFields.sign
    rw [if_pos hfits, hs]
    exact if_pos hsignature

/-- Options of one command are read as the command. -/
theorem entries?_forceCommand {command : Bytes}
    (hf : Wire.fits (CertificateFields.packOptions
      [(Certificate.forceCommandName, Wire.putString command)]) = true) :
    CertificateFields.entries? (CertificateFields.packOptions
        [(Certificate.forceCommandName, Wire.putString command)]) =
      some [(Certificate.forceCommandName, Wire.putString command)] ∧
      Wire.whole? Wire.string (Wire.putString command) = some command := by
  have hdata : Wire.fits (Wire.putString command) = true := by
    refine Wire.fits_of_length_le hf ?_
    simp only [CertificateFields.packOptions_cons, List.length_append, Wire.length_putString]
    omega
  have hcommand : Wire.fits command = true := by
    refine Wire.fits_of_length_le hdata ?_
    rw [Wire.length_putString]
    exact Nat.le_add_left _ _
  refine ⟨CertificateFields.entries?_eq_some_iff.mpr ⟨?_, rfl⟩,
    Wire.whole?_string_iff.mpr ⟨hcommand, rfl⟩⟩
  rw [List.all_cons, List.all_nil, Bool.and_true, CertificateFields.entryFits, hdata, Bool.and_true]
  show Wire.fits Certificate.forceCommandName = true
  decide

/-- The text of a signed draft holds the draft, field by field. -/
theorem layout_of_sign {d : Draft} {key : PrivateKey} {oneTime : Nat} {c : SignedCertificate}
    (h : d.sign key oneTime = .ok c) : ∃ f, c.Layout d key.blob f ∧ Wire.fits key.blob = true := by
  obtain ⟨f, signature, hfields, hfits, -, hsignature, rfl⟩ := sign_eq_ok_iff.mp h
  obtain ⟨octets, hoctets, hserial, hkeyId, hafter, hbefore, hftype, hnonce, hsubject, hkind,
    hprincipals, hcritical, hextensions, hreserved, hsigner⟩ := of_fields hfields
  obtain ⟨hserialEq, hserialLt⟩ := of_uint64? hserial
  obtain ⟨hafterEq, hafterLt⟩ := of_uint64? hafter
  obtain ⟨hbeforeEq, hbeforeLt⟩ := of_uint64? hbefore
  -- all strings and numbers fit, as the signing has found, so the fields are read back
  have hread : CertificateFields.read (⟨f.type, f.encode, signature⟩ : SignedCertificate).blob =
      some (f.raw, Wire.putString signature) :=
    CertificateFields.read_encode hftype (hsubject ▸ d.subject.suits) hfits hserialLt
      (by rw [hkind]; decide) hafterLt hbeforeLt _
  obtain ⟨x, rest, -, -, hvisible⟩ := KeyAlgorithm.exists_cons_of_mem_lineNames
    d.subject.algorithm.certificateType_mem_lineNames
  simp only [CertificateFields.fits, List.cons_append, List.nil_append, List.all_cons,
    Bool.and_eq_true] at hfits
  obtain ⟨-, -, -, -, hcriticalFits, -, -, hsignerFits, -⟩ := hfits
  rw [hcritical] at hcriticalFits
  rw [hsigner] at hsignerFits
  obtain ⟨hentries, hwhole⟩ := entries?_forceCommand hcriticalFits
  refine ⟨f.raw, ?_, hsignerFits⟩
  exact {
    line := by rw [SignedCertificate.text, hftype]
    visible := fun y hy =>
      (List.mem_append.mp hy).elim (hvisible y) (Base64.visible_of_mem_encode y)
    found := SignedCertificate.packet?_text hftype
    read := hread
    complete := Wire.whole?_string_iff.mpr ⟨hsignature, rfl⟩
    type := hftype
    nonce := hnonce
    subject := by rw [CertificateFields.raw, hsubject]
    serial := ⟨hserialEq, hserialLt⟩
    kind := hkind
    keyId := of_octets? hkeyId
    principals := by
      show Wire.strings? f.principals = some []
      rw [hprincipals]
      rfl
    validAfter := ⟨hafterEq, hafterLt⟩
    validBefore := ⟨hbeforeEq, hbeforeLt⟩
    critical := by
      refine ⟨Wire.putString octets, octets, ?_, hwhole, of_octets? hoctets⟩
      show CertificateFields.entries? f.critical = _
      rw [hcritical, hentries]
    extensions := by
      show CertificateFields.entries? f.extensions = _
      rw [hextensions]
      exact CertificateFields.entries?_eq_some_iff.mpr ⟨by decide, rfl⟩
    reserved := hreserved
    signer := hsigner }

end Draft

/-! ### Issued certificates -/

namespace Issue

/-- With a command, a window and a key identifier the outcome rests on the signing and on the check. -/
theorem issueAt_of_window {decoder : Token.Decoder} {info : HostInfo} {subject : PublicKey}
    {token command : Text} {now : Int} {circumstances : Circumstances} {validAfter validBefore : Int}
    {keyId : Text}
    (hcommand : command ≠ [])
    (hwindow : Token.validityWindow decoder info.duration token now = .ok (validAfter, validBefore))
    (horder : validAfter < validBefore) (hkeyId : Token.keyId decoder token = .ok keyId) :
    issueAt decoder info subject token command now circumstances = (do
      let certificate ← (Draft.sign ⟨subject, circumstances.nonce, circumstances.serial, keyId,
        validAfter, validBefore, command⟩ info.userKeys.privateKey.value
          circumstances.oneTime).mapError fun cause => .signing (.construction cause)
      (Certificate.checkText certificate.text subject info.userKeys.publicKey.value command
        circumstances.clock).mapError .validation
      return ⟨certificate, circumstances.serial, keyId, validAfter, validBefore⟩) := by
  unfold issueAt
  rw [if_neg fun hempty => hcommand (List.isEmpty_iff.mp hempty), hwindow]
  show (if validBefore ≤ validAfter then _ else _) = _
  rw [if_neg (Int.not_le.mpr horder), hkeyId]
  rfl

/-- A certificate is issued if and only if every step goes well. -/
theorem issueAt_eq_ok_iff {decoder : Token.Decoder} {info : HostInfo} {subject : PublicKey}
    {token command : Text} {now : Int} {circumstances : Circumstances} {c : IssuedCertificate} :
    issueAt decoder info subject token command now circumstances = .ok c ↔
      command ≠ [] ∧
        Token.validityWindow decoder info.duration token now = .ok (c.validAfter, c.validBefore) ∧
        c.validAfter < c.validBefore ∧ Token.keyId decoder token = .ok c.keyId ∧
        c.serial = circumstances.serial ∧
        Draft.sign ⟨subject, circumstances.nonce, c.serial, c.keyId, c.validAfter, c.validBefore,
          command⟩ info.userKeys.privateKey.value circumstances.oneTime = .ok c.certificate ∧
        Certificate.checkText c.certificate.text subject info.userKeys.publicKey.value command
          circumstances.clock = .ok () := by
  constructor
  · intro h
    unfold issueAt at h
    split at h
    · cases h
    next hcommand =>
    obtain ⟨⟨validAfter, validBefore⟩, hwindow, h⟩ := Except.bind_eq_ok_iff.mp h
    dsimp only at h
    split at h
    · cases h
    next horder =>
    obtain ⟨keyId, hkeyId, h⟩ := Except.bind_eq_ok_iff.mp h
    obtain ⟨certificate, hsign, h⟩ := Except.bind_eq_ok_iff.mp h
    obtain ⟨⟨⟩, hcheck, h⟩ := Except.bind_eq_ok_iff.mp h
    cases h
    exact ⟨fun hnil => hcommand (List.isEmpty_iff.mpr hnil), hwindow, Int.not_le.mp horder,
      Except.mapError_eq_ok_iff.mp hkeyId, rfl, Except.mapError_eq_ok_iff.mp hsign,
      Except.mapError_eq_ok_iff.mp hcheck⟩
  · rintro ⟨hcommand, hwindow, horder, hkeyId, hserial, hsign, hcheck⟩
    rw [hserial] at hsign
    rw [issueAt_of_window hcommand hwindow horder hkeyId]
    refine Except.bind_eq_ok_iff.mpr ⟨_, Except.mapError_eq_ok_iff.mpr hsign, ?_⟩
    refine Except.bind_eq_ok_iff.mpr ⟨(), Except.mapError_eq_ok_iff.mpr hcheck, ?_⟩
    rw [← hserial]
    rfl

/-- The signer of a certificate that was checked is the authority. -/
theorem signer_eq_of_warrant {packet body signature : Bytes} {f : CertificateFields KeyFields}
    {signer subject authority : PublicKey} {command : Text} {time : Rat}
    (h : Certificate.Warrant packet f body signature subject authority command time)
    (hs : f.signer = signer.blob) (hf : Wire.fits signer.blob = true) :
    signer.blob = authority.blob := by
  obtain ⟨k, hk, hblob, -⟩ := h.signer
  rw [hs] at hk
  obtain ⟨halgorithm, hmaterial⟩ := PublicKey.eq_of_ofBlob_blob (PublicKey.fits_strings hf) hk
  exact (PublicKey.blob_congr halgorithm hmaterial).symm.trans hblob

/-- What an issued certificate is to say. -/
def draft (subject : PublicKey) (command : Text) (nonce : Bytes) (c : IssuedCertificate) : Draft :=
  ⟨subject, nonce, c.serial, c.keyId, c.validAfter, c.validBefore, command⟩

/-- What is issued is laid out as it was drafted, and has passed the check: the reader of
certificates makes of it a certificate of the same fields, and there is a warrant for it. -/
theorem sound_of_issueAt {decoder : Token.Decoder} {info : HostInfo} {subject : PublicKey}
    {token command : Text} {now : Int} {circumstances : Circumstances} {c : IssuedCertificate}
    (h : issueAt decoder info subject token command now circumstances = .ok c) :
    ∃ f certificate,
      c.certificate.Layout (draft subject command circumstances.nonce c)
          info.userKeys.publicKey.value.blob f ∧
        Wire.fits info.userKeys.publicKey.value.blob = true ∧
        Certificate.ofText? c.certificate.text = some certificate ∧ certificate.ReadFrom f ∧
        Certificate.Warrant c.certificate.blob f c.certificate.body c.certificate.signature subject
          info.userKeys.publicKey.value command circumstances.clock := by
  obtain ⟨-, -, -, -, -, hsign, hcheck⟩ := issueAt_eq_ok_iff.mp h
  obtain ⟨f, hlayout, hfits⟩ := Draft.layout_of_sign hsign
  -- the packet that was checked is the one that was signed, so it is read as these fields
  obtain ⟨packet, certificate, hpacket, hblob, hchecked⟩ := Certificate.of_checkText hcheck
  obtain rfl : c.certificate.blob = packet := Option.some.inj (hlayout.found.symm.trans hpacket)
  obtain ⟨f', body, signature, hfrom, hwarrant⟩ := Certificate.warrant_of_check hblob hchecked
  obtain ⟨rfl, hputs⟩ := Prod.mk.inj (Option.some.inj (hlayout.read.symm.trans hwarrant.read))
  obtain rfl : c.certificate.signature = signature := by
    have heq := hwarrant.complete
    rw [← hputs, hlayout.complete] at heq
    exact Option.some.inj heq
  obtain rfl : c.certificate.body = body := List.append_cancel_right hwarrant.parts
  have htext : Certificate.ofText? c.certificate.text = some certificate := by
    rw [Certificate.ofText?_eq_bind, hpacket, Option.bind_some, hblob]
  have hsigner := signer_eq_of_warrant hwarrant hlayout.signer hfits
  -- the halves of the pair have one encoding, though nobody has compared them before signing
  rw [PrivateKey.blob, hsigner] at hlayout hfits
  exact ⟨f, certificate, hlayout, hfits, htext, hfrom, hwarrant⟩

/-- What the reader of certificates makes of an issued one: a certificate for the key, by the
authority, with the one command and a terminal. -/
structure Reads (certificate : Certificate) (c : IssuedCertificate) (subject authority : PublicKey)
    (command : Text) : Prop where
  kind : certificate.kind = .user
  subject : certificate.subject.material = subject.material
  keyId : certificate.keyId = c.keyId
  principals : certificate.principals = []
  window : (certificate.validAfter : Int) = c.validAfter ∧
    (certificate.validBefore : Int) = c.validBefore
  options : certificate.options = [.forceCommand command]
  extensions : certificate.extensions = [Bytes.ofString "permit-pty"]
  signer : certificate.signer.algorithm = authority.algorithm ∧
    certificate.signer.material = authority.material

/-- Fields that are laid out as drafted make such a certificate. -/
theorem reads_of_layout {c : IssuedCertificate} {subject authority : PublicKey} {command : Text}
    {nonce : Bytes} {f : CertificateFields KeyFields} {certificate : Certificate}
    (h : c.certificate.Layout (draft subject command nonce c) authority.blob f)
    (hfits : Wire.fits authority.blob = true) (hfrom : certificate.ReadFrom f) :
    Reads certificate c subject authority command := by
  -- the kind comes first, since options and extensions are read by it
  have hkind : certificate.kind = .user := by
    have hread := hfrom.kind
    rw [Certificate.kind?_eq_user_iff.mpr h.kind] at hread
    exact (Option.some.inj hread).symm
  have hoptions := hfrom.options
  have hextensions := hfrom.extensions
  rw [hkind] at hoptions hextensions
  have hsigner := hfrom.signer
  rw [h.signer] at hsigner
  refine ⟨hkind, ?subject, ?keyId, ?principals, ?window, ?options, ?extensions,
    PublicKey.eq_of_ofBlob_blob (PublicKey.fits_strings hfits) hsigner⟩
  case subject =>
    obtain ⟨m, hm, hsubject⟩ := hfrom.subject
    rw [h.subject] at hm
    rw [hsubject]
    exact KeyMaterial.eq_of_material?_fields hm
  case keyId =>
    have hread := hfrom.keyId
    rw [h.keyId] at hread
    exact (Option.some.inj hread).symm
  case principals =>
    have hread := hfrom.principals
    rw [h.principals] at hread
    exact (Option.some.inj hread).symm
  case window =>
    rw [hfrom.validAfter, hfrom.validBefore]
    exact ⟨h.validAfter.1, h.validBefore.1⟩
  case options => exact Option.some.inj (hoptions.symm.trans h.criticalOptions?_eq)
  case extensions => exact Option.some.inj (hextensions.symm.trans h.extensions?_eq)

/-- An issued certificate is good: it is read as one for the key, by the authority, whose
signature over all before it holds, and its time has come and not passed. -/
def Good (c : IssuedCertificate) (subject authority : PublicKey) (command : Text) (time : Rat) :
    Prop :=
  ∃ certificate, Certificate.ofText? c.certificate.text = some certificate ∧
    Reads certificate c subject authority command ∧
    Certificate.packet? c.certificate.text =
      some (c.certificate.body ++ Wire.putString c.certificate.signature) ∧
    authority.material.verify c.certificate.body c.certificate.signature = true ∧
    (certificate.validAfter : Rat) ≤ time ∧ time < (certificate.validBefore : Rat)

/-- What is issued is good at the time of the check, with the key of the group as authority. -/
theorem good_of_issueAt {decoder : Token.Decoder} {info : HostInfo} {subject : PublicKey}
    {token command : Text} {now : Int} {circumstances : Circumstances} {c : IssuedCertificate}
    (h : issueAt decoder info subject token command now circumstances = .ok c) :
    Good c subject info.userKeys.publicKey.value command circumstances.clock := by
  obtain ⟨f, certificate, hlayout, hfits, htext, hfrom, hwarrant⟩ := sound_of_issueAt h
  obtain ⟨k, hk, -, hverify⟩ := hwarrant.signer
  rw [hlayout.signer] at hk
  rw [(PublicKey.eq_of_ofBlob_blob (PublicKey.fits_strings hfits) hk).2] at hverify
  refine ⟨certificate, htext, reads_of_layout hlayout hfits hfrom, hlayout.found, hverify, ?_, ?_⟩
  · rw [hfrom.validAfter]
    exact hwarrant.notBefore
  · rw [hfrom.validBefore]
    exact hwarrant.notAfter

/-- The text of an issued certificate holds what it was issued for, field by field, with the
key of the group as signer. -/
theorem layout_of_issueAt {decoder : Token.Decoder} {info : HostInfo} {subject : PublicKey}
    {token command : Text} {now : Int} {circumstances : Circumstances} {c : IssuedCertificate}
    (h : issueAt decoder info subject token command now circumstances = .ok c) :
    c.serial = circumstances.serial ∧
      ∃ f, c.certificate.Layout (draft subject command circumstances.nonce c)
        info.userKeys.publicKey.value.blob f := by
  obtain ⟨-, -, -, -, hserial, -⟩ := issueAt_eq_ok_iff.mp h
  obtain ⟨f, certificate, hlayout, -⟩ := sound_of_issueAt h
  exact ⟨hserial, f, hlayout⟩

/-! ### A certificate that is issued -/

namespace Sample

open Certificate.Sample (authority subject fields signature)

/-- The secret numbers of the authority. -/
def secret : Rsa.Secret :=
  let (p, q) := Certificate.Sample.primes
  let d := (Nat.lcm (p - 1) (q - 1) + 1) / 3
  ⟨d, p, q, d % (p - 1), d % (q - 1), Modular.inverse p q⟩

/-- The private key of the authority. -/
def privateKey : PrivateKey := ⟨authority, .rsa secret⟩

/-- Both key pairs of a group. -/
def keys : KeyPair := ⟨⟨0, privateKey⟩, ⟨1, authority⟩⟩

/-- A group of one host, whose users are given an hour. -/
def group (endpoint : Text) : HostGroup :=
  ⟨"site", keys, keys, "1h", 3600, [("login.example.org", endpoint)]⟩

/-- What the group says of the host. -/
def info (endpoint : Text) : HostInfo := (group endpoint).info "login.example.org" endpoint

/-- A decoder that refuses what it cannot read. -/
def decoder : Token.Decoder := ⟨.refused, .refused⟩

/-- The second, the serial number and the nonce of the certificate; the one-time number does not
count for the key of the group. -/
def circumstances : Circumstances := ⟨1000, 7, [1, 2, 3, 4], 1⟩

/-- The certificate of the user. -/
def issued : IssuedCertificate :=
  ⟨⟨fields.type, fields.encode, signature⟩, 7, "oinit-ca", 1000, 4600⟩

theorem sign_eq :
    (draft subject "oinit-switch" [1, 2, 3, 4] issued).sign privateKey 1 =
      .ok issued.certificate :=
  Except.toOption_eq_some_iff.mp (by decide +kernel)

theorem issueAt_eq (endpoint : Text) :
    issueAt decoder (info endpoint) subject "t" "oinit-switch" 1000 circumstances = .ok issued := by
  have hkeyId : Token.keyId decoder "t" = .ok issued.keyId :=
    Except.toOption_eq_some_iff.mp (by decide +kernel)
  exact issueAt_eq_ok_iff.mpr ⟨by decide, rfl, by decide, hkeyId, rfl, sign_eq,
    Certificate.Sample.checkText_text⟩

end Sample

/-- The certificate of the user is laid out as it was drafted. -/
theorem layout_sample :
    issueAt Sample.decoder (Sample.info []) Certificate.Sample.subject "t" "oinit-switch" 1000
        Sample.circumstances = .ok Sample.issued ∧
      Sample.issued.serial = 7 ∧
      ∃ f, Sample.issued.certificate.Layout
        (draft Certificate.Sample.subject "oinit-switch" [1, 2, 3, 4] Sample.issued)
        Certificate.Sample.authority.blob f :=
  ⟨Sample.issueAt_eq [], layout_of_issueAt (Sample.issueAt_eq [])⟩

end Issue

end SshAuthority
