/-
SshAuthority/Proofs/Certificate/Acceptance.lean

The check after signing lets pass what was signed.

A certificate is read back from its own text as what it was drafted as: the fields are
those of the draft, and the keys in them, which were imported once, are imported again. So
the check finds what it looks for, with one exception. The key in a certificate goes by the
name that its fields make, and on a curve a key can be imported under the name of another;
the certificate for such a key is refused. Before that, an RSA key of the authority can be
too short for the digest to be signed.

What carries the proof is that under the conditions for issuing (`Issue.Proper`) there is
nothing else that can go wrong, so the outcome rests on these two points alone
(`Proper.issueAt_of_sign?`, `Proper.issueAt_of_sign?_eq_none`).

Main result: `accepted_iff_of_parse`; `refused_sample` shows both exceptions.
-/
import SshAuthority.Proofs.Certificate.Layout
import SshAuthority.Proofs.Config.Regular
import SshAuthority.Proofs.Key.Import

namespace SshAuthority

/-! ### Keys by their names -/

namespace PublicKey

/-- The key goes by the name that its fields make. -/
def NameAgrees (k : PublicKey) : Prop := k.material.name = k.algorithm.name

instance (k : PublicKey) : Decidable k.NameAgrees := inferInstanceAs (Decidable (_ = _))

/-- The fields of a key are encoded as the key if and only if it goes by the name they make. -/
theorem blob_material_eq_iff {k : PublicKey} : k.material.blob = k.blob ↔ k.NameAgrees :=
  blob_eq_iff.trans ⟨fun h => h.1, fun h => ⟨h, rfl⟩⟩

end PublicKey

/-! ### Certificates read back -/

namespace Certificate

/-- What the fields of a draft are read as. -/
def ofDraft (d : Draft) (f : CertificateFields KeyFields) (signer : PublicKey) : Certificate where
  kind := .user
  subject := .ofMaterial d.subject.material
  keyId := d.keyId
  principals := []
  validAfter := f.validAfter
  validBefore := f.validBefore
  options := [.forceCommand d.command]
  extensions := [Bytes.ofString "permit-pty"]
  signer := signer

variable {c : SignedCertificate} {d : Draft} {signer signer' : PublicKey}
  {f : CertificateFields KeyFields}

/-- The fields of a draft for a sound key, by a signer that is read, are those of a certificate. -/
theorem ofFields?_of_layout (h : c.Layout d signer.blob f) (hsubject : d.subject.Sound)
    (hsigner : PublicKey.ofBlob signer.blob = .ok signer') :
    ofFields? f = some (ofDraft d f signer') := by
  have hkind : kind? f.kind = some .user := kind?_eq_user_iff.mpr h.kind
  have hmaterial : f.subject.material? = .ok d.subject.material := by
    rw [h.subject]
    exact hsubject
  have hblob : PublicKey.ofBlob f.signer = .ok signer' := by
    rw [h.signer]
    exact hsigner
  unfold ofFields?
  simp only [hkind, hmaterial, h.keyId, h.principals, h.criticalOptions?_eq, h.extensions?_eq, hblob,
    Except.toOption, Option.bind_eq_bind, Option.bind_some]
  rfl

/-- The text of a signed draft is read as its certificate, if the signature holds. -/
theorem ofText?_of_layout (h : c.Layout d signer.blob f) (hsubject : d.subject.Sound)
    (hsigner : PublicKey.ofBlob signer.blob = .ok signer')
    (hverify : signer'.material.verify c.body c.signature = true) :
    ofText? c.text = some (ofDraft d f signer') := by
  rw [ofText?_eq_bind, h.found, Option.bind_some]
  unfold ofBlob?
  rw [h.read]
  simp only [Option.bind_eq_bind, Option.bind_some, ofFields?_of_layout h hsubject hsigner, h.complete]
  rw [SignedCertificate.blob, List.length_append, Nat.add_sub_cancel, List.take_left]
  exact if_pos hverify

/-- The check of the certificate of a draft comes down to the name of the key, if the command is not
empty and the time lies in the window. -/
theorem check_ofDraft {authority : PublicKey} {time : Rat} (hsigner : signer.blob = authority.blob)
    (hcommand : d.command ≠ []) (hafter : (f.validAfter : Rat) ≤ time)
    (hbefore : time < (f.validBefore : Rat)) :
    (ofDraft d f signer).check d.subject authority d.command time =
      if d.subject.NameAgrees then .ok () else .error .wrongSubject := by
  have hauthority : ¬ (ofDraft d f signer).signer.blob ≠ authority.blob :=
    Decidable.not_not.mpr hsigner
  have hname : (ofDraft d f signer).subject.material.blob = d.subject.blob ↔ d.subject.NameAgrees :=
    PublicKey.blob_material_eq_iff (k := d.subject)
  have hforced : ¬ (d.command.isEmpty ||
      (ofDraft d f signer).forceCommand? ≠ some d.command) = true := by
    simp [hcommand, forceCommand?, ofDraft]
  have hsource : ¬ (ofDraft d f signer).hasSourceAddress = true := Bool.false_ne_true
  have hkind : ¬ (ofDraft d f signer).kind ≠ .user := Decidable.not_not.mpr rfl
  have hvalid : (ofDraft d f signer).checkValidity time = .ok () := by
    unfold checkValidity
    rw [if_neg hkind]
    exact (if_neg (Rat.not_lt.mpr hafter)).trans (if_neg (Rat.not_le.mpr hbefore))
  unfold check
  rw [if_neg hauthority, if_neg hforced, if_neg hsource, hvalid]
  by_cases hsubject : d.subject.NameAgrees
  · rw [if_pos hsubject]
    exact if_neg (Decidable.not_not.mpr (hname.mpr hsubject))
  · rw [if_neg hsubject]
    exact if_pos (mt hname.mp hsubject)

/-- So does the check of the text of a signed draft, if the signature holds. -/
theorem checkText_of_layout {authority : PublicKey} {time : Rat} (h : c.Layout d signer.blob f)
    (hsubject : d.subject.Sound) (hsigner : PublicKey.ofBlob signer.blob = .ok signer')
    (hverify : signer'.material.verify c.body c.signature = true)
    (hauthority : signer'.blob = authority.blob) (hcommand : d.command ≠ [])
    (hafter : (d.validAfter : Rat) ≤ time) (hbefore : time < (d.validBefore : Rat)) :
    checkText c.text d.subject authority d.command time =
      if d.subject.NameAgrees then .ok () else .error .wrongSubject := by
  unfold checkText
  rw [ofText?_of_layout h hsubject hsigner hverify]
  refine check_ofDraft hauthority hcommand ?_ ?_
  · rw [← Rat.intCast_natCast, h.validAfter.1]
    exact hafter
  · rw [← Rat.intCast_natCast, h.validBefore.1]
    exact hbefore

end Certificate

/-! ### Drafts -/

namespace Draft

theorem exists_octets? {t : Text} (h : (Utf8.encode? t).isSome = true) : ∃ b, octets? t = .ok b := by
  obtain ⟨b, hb⟩ := Option.isSome_iff_exists.mp h
  exact ⟨b, by rw [octets?, hb]⟩

theorem exists_uint64? {n : Int} (h₀ : 0 ≤ n) (h : n < 2 ^ 64) : ∃ m, uint64? n = .ok m :=
  ⟨n.toNat, if_pos (Bool.and_eq_true_iff.mpr ⟨decide_eq_true h₀, decide_eq_true h⟩)⟩

/-- A draft has fields if its texts can be encoded and its numbers are in range. -/
theorem exists_fields {d : Draft} (signer : PublicKey)
    (hcommand : (Utf8.encode? d.command).isSome = true) (hkeyId : (Utf8.encode? d.keyId).isSome = true)
    (hserial : 0 ≤ d.serial ∧ d.serial < 2 ^ 64) (hafter : 0 ≤ d.validAfter ∧ d.validAfter < 2 ^ 64)
    (hbefore : 0 ≤ d.validBefore ∧ d.validBefore < 2 ^ 64) : ∃ f, d.fields signer = .ok f := by
  obtain ⟨command, hcommand⟩ := exists_octets? hcommand
  obtain ⟨serial, hserial⟩ := exists_uint64? hserial.1 hserial.2
  obtain ⟨keyId, hkeyId⟩ := exists_octets? hkeyId
  obtain ⟨validAfter, hafter⟩ := exists_uint64? hafter.1 hafter.2
  obtain ⟨validBefore, hbefore⟩ := exists_uint64? hbefore.1 hbefore.2
  unfold fields
  rw [hcommand, hserial, hkeyId, hafter, hbefore]
  exact ⟨_, rfl⟩

/-- A draft whose fields can be written is not signed if the key does not sign. -/
theorem sign_eq_error {d : Draft} {key : PrivateKey} {f : CertificateFields KeyMaterial}
    (hf : d.fields key.publicPart = .ok f) (hfits : f.fits = true)
    {oneTime : Nat} (hs : key.sign? oneTime f.encode = none) :
    d.sign key oneTime = .error .badValue := by
  refine Except.bind_eq_error_iff.mpr (.inr ⟨f, hf, ?_⟩)
  unfold CertificateFields.sign
  rw [if_pos hfits, hs]

end Draft

/-! ### Conditions for issuing -/

namespace Issue

variable {decoder : Token.Decoder} {info : HostInfo} {subject : PublicKey} {token command : Text}
  {now : Int} {circumstances : Circumstances} {keyId : Text} {validBefore : Int}

/-- The draft of a certificate of the key identifier that is valid from `now` to `validBefore`. -/
def draftAt (subject : PublicKey) (command : Text) (now : Int) (circumstances : Circumstances)
    (keyId : Text) (validBefore : Int) : Draft :=
  ⟨subject, circumstances.nonce, circumstances.serial, keyId, now, validBefore, command⟩

/-- A certificate of the key identifier, valid from `now` to `validBefore`, is one that can be
written: the texts can be encoded, the numbers are in range and all fields are short enough, and the
time of the check lies in the window that the token and the group make. Of the signature scheme it
is asked that the signature, if one is made, holds under the public part of the key that made it. -/
structure Proper (decoder : Token.Decoder) (info : HostInfo) (subject : PublicKey)
    (token command : Text) (now : Int) (circumstances : Circumstances) (keyId : Text)
    (validBefore : Int) : Prop where
  command_ne_nil : command ≠ []
  encodesCommand : (Utf8.encode? command).isSome = true
  names : Token.keyId decoder token = .ok keyId
  encodesKeyId : (Utf8.encode? keyId).isSome = true
  serial : 0 ≤ circumstances.serial ∧ circumstances.serial < 2 ^ 63
  window : Token.validityWindow decoder info.duration token now = .ok (now, validBefore)
  begins : 0 ≤ now ∧ (now : Rat) ≤ circumstances.clock
  ends : circumstances.clock < (validBefore : Rat) ∧ validBefore ≤ Token.Claims.maxSecond
  fits : ∀ f ∈ ((draftAt subject command now circumstances keyId validBefore).fields
      info.userKeys.privateKey.value.publicPart).toOption,
    f.fits = true ∧
      ∀ s ∈ info.userKeys.privateKey.value.sign? circumstances.oneTime f.encode, Wire.fits s = true
  holds : ∀ f ∈ ((draftAt subject command now circumstances keyId validBefore).fields
      info.userKeys.privateKey.value.publicPart).toOption,
    ∀ s ∈ info.userKeys.privateKey.value.sign? circumstances.oneTime f.encode,
      info.userKeys.privateKey.value.publicPart.material.verify f.encode s = true

namespace Proper

theorem now_lt_validBefore
    (h : Proper decoder info subject token command now circumstances keyId validBefore) :
    now < validBefore :=
  Int.not_le.mp fun hle =>
    Rat.not_lt.mpr (Rat.le_trans (Rat.intCast_le_intCast.mpr hle) h.begins.2) h.ends.1

/-- There are fields to be signed. -/
theorem exists_fields
    (h : Proper decoder info subject token command now circumstances keyId validBefore) :
    ∃ f, (draftAt subject command now circumstances keyId validBefore).fields
      info.userKeys.privateKey.value.publicPart = .ok f := by
  have horder := h.now_lt_validBefore
  obtain ⟨hbegins, -⟩ := h.begins
  have hends : validBefore < 2 ^ 64 := Int.lt_of_le_of_lt h.ends.2 (by decide)
  refine Draft.exists_fields _ h.encodesCommand h.encodesKeyId ⟨h.serial.1, ?_⟩ ⟨hbegins, ?_⟩
    ⟨?_, hends⟩
  · exact Int.lt_of_lt_of_le h.serial.2 (by decide)
  · exact Int.lt_trans horder hends
  · exact Int.le_of_lt (Int.lt_of_le_of_lt hbegins horder)

/-- Nothing goes wrong before the draft is signed. -/
theorem issueAt_eq
    (h : Proper decoder info subject token command now circumstances keyId validBefore) :
    issueAt decoder info subject token command now circumstances = (do
      let certificate ← ((draftAt subject command now circumstances keyId validBefore).sign
        info.userKeys.privateKey.value circumstances.oneTime).mapError
          fun cause => .signing (.construction cause)
      (Certificate.checkText certificate.text subject info.userKeys.publicKey.value command
        circumstances.clock).mapError .validation
      return ⟨certificate, circumstances.serial, keyId, now, validBefore⟩) :=
  issueAt_of_window h.command_ne_nil h.window h.now_lt_validBefore h.names

variable {f : CertificateFields KeyMaterial}

/-- If the key signs, the outcome rests on the name of the subject. -/
theorem issueAt_of_sign?
    (h : Proper decoder info subject token command now circumstances keyId validBefore)
    (hsubject : subject.Sound) (hkey : info.userKeys.privateKey.value.publicPart.Sound)
    (hblob : info.userKeys.privateKey.value.blob = info.userKeys.publicKey.value.blob)
    (hf : (draftAt subject command now circumstances keyId validBefore).fields
      info.userKeys.privateKey.value.publicPart = .ok f) {s : Bytes}
    (hs : info.userKeys.privateKey.value.sign? circumstances.oneTime f.encode = some s) :
    issueAt decoder info subject token command now circumstances =
      if subject.NameAgrees then
        .ok ⟨⟨f.type, f.encode, s⟩, circumstances.serial, keyId, now, validBefore⟩
      else .error (.validation .wrongSubject) := by
  have hmem := Option.mem_def.mpr (Except.toOption_eq_some_iff.mpr hf)
  obtain ⟨hfits, hsignature⟩ := h.fits f hmem
  have hsign := Draft.sign_eq_ok_iff.mpr ⟨f, s, hf, hfits, hs, hsignature s hs, rfl⟩
  obtain ⟨raw, hlayout, hkeyFits⟩ := Draft.layout_of_sign hsign
  -- the signer is read from the packet as what it is, so the signature holds for what was read
  obtain ⟨signer, hsigner, halgorithm, hmaterial⟩ := PublicKey.exists_ofBlob_blob hkey
    (PublicKey.fits_strings hkeyFits)
  have hverify : signer.material.verify f.encode s = true := by
    rw [hmaterial]
    exact h.holds f hmem s hs
  have hauthority : signer.blob = info.userKeys.publicKey.value.blob :=
    (PublicKey.blob_congr halgorithm hmaterial).trans hblob
  have hcheck : Certificate.checkText (⟨f.type, f.encode, s⟩ : SignedCertificate).text subject
      info.userKeys.publicKey.value command circumstances.clock =
        if subject.NameAgrees then .ok () else .error .wrongSubject :=
    Certificate.checkText_of_layout (d := draftAt subject command now circumstances keyId validBefore)
      hlayout hsubject hsigner hverify hauthority h.command_ne_nil h.begins.2 h.ends.1
  rw [h.issueAt_eq, hsign]
  by_cases hname : subject.NameAgrees
  · rw [if_pos hname] at hcheck ⊢
    refine Except.bind_eq_ok_iff.mpr ⟨_, rfl, ?_⟩
    exact Except.bind_eq_ok_iff.mpr ⟨(), Except.mapError_eq_ok_iff.mpr hcheck, rfl⟩
  · rw [if_neg hname] at hcheck ⊢
    refine Except.bind_eq_error_iff.mpr (.inr ⟨_, rfl, ?_⟩)
    exact Except.bind_eq_error_iff.mpr (.inl (Except.mapError_eq_error_iff.mpr ⟨_, hcheck, rfl⟩))

/-- If the key does not sign, the signing fails. -/
theorem issueAt_of_sign?_eq_none
    (h : Proper decoder info subject token command now circumstances keyId validBefore)
    (hf : (draftAt subject command now circumstances keyId validBefore).fields
      info.userKeys.privateKey.value.publicPart = .ok f)
    (hs : info.userKeys.privateKey.value.sign? circumstances.oneTime f.encode = none) :
    issueAt decoder info subject token command now circumstances =
      .error (.signing (.construction .badValue)) := by
  obtain ⟨hfits, -⟩ := h.fits f (Option.mem_def.mpr (Except.toOption_eq_some_iff.mpr hf))
  rw [h.issueAt_eq, Draft.sign_eq_error hf hfits hs]
  rfl

/-- With imported keys of one encoding a certificate is issued if the subject goes by the name that
its fields make and the key of the authority has room for the digest, and otherwise not. -/
theorem exists_issueAt_iff
    (h : Proper decoder info subject token command now circumstances keyId validBefore)
    (hsubject : subject.Sound) (hkey : info.userKeys.privateKey.value.Sound)
    (hcan : info.userKeys.privateKey.value.algorithm.canSign = true)
    (hblob : info.userKeys.privateKey.value.blob = info.userKeys.publicKey.value.blob) :
    (∃ c, issueAt decoder info subject token command now circumstances = .ok c) ↔
      subject.NameAgrees ∧ info.userKeys.privateKey.value.HasRoom := by
  obtain ⟨f, hf⟩ := h.exists_fields
  rw [← PrivateKey.exists_sign?_iff hkey hcan circumstances.oneTime f.encode]
  rcases hs : info.userKeys.privateKey.value.sign? circumstances.oneTime f.encode with - | s
  · rw [h.issueAt_of_sign?_eq_none hf hs]
    constructor
    · rintro ⟨c, hc⟩
      cases hc
    · rintro ⟨-, s, hs⟩
      cases hs
  · rw [h.issueAt_of_sign? hsubject hkey.material hblob hf hs]
    constructor
    · rintro ⟨c, hc⟩
      split at hc
      · next hname => exact ⟨hname, s, rfl⟩
      · cases hc
    · rintro ⟨hname, -⟩
      exact ⟨_, if_pos hname⟩

end Proper

end Issue

/-! ### The keys of a configuration -/

/-- A private key that is loaded is sound, and of an algorithm that signs unattended. -/
theorem KeyFile.sound_of_privateKey {files : FileTree} {path : Text} {key : PrivateKey}
    (h : privateKey files path = .ok key) : key.Sound ∧ key.algorithm.canSign = true := by
  obtain ⟨⟨octets, -, hkey⟩, hsupported⟩ := of_keyOf .privateHalf h
  exact ⟨PrivateKey.all_ofBytes octets key hkey, KeyAlgorithm.canSign_iff.mpr hsupported⟩

/-- So are the private keys that users are vouched for with, in every configuration. -/
theorem Config.sound_userKeys_of_parse {files : FileTree} {text : Text} {config : Config}
    (h : ((parse files text).run.run {}).1 = .ok config) {g : HostGroup} (hg : g ∈ config.groups) :
    g.userKeys.privateKey.value.Sound ∧ g.userKeys.privateKey.value.algorithm.canSign = true ∧
      g.userKeys.privateKey.value.blob = g.userKeys.publicKey.value.blob := by
  obtain ⟨d, -, -, hbuilds⟩ := exists_document_of_parse h
  have hkeys := (hbuilds g hg).userKeys
  obtain ⟨hsound, hcan⟩ := KeyFile.sound_of_privateKey hkeys.privateKey
  exact ⟨hsound, hcan, hkeys.blob⟩

namespace Issue

/-- For a group of a configuration and an imported key, a certificate that can be written is issued if
the key goes by the name that its fields make and an RSA key of the group has room for the digest,
and otherwise not. -/
theorem accepted_iff_of_parse {files : FileTree} {text : Text} {config : Config} {g : HostGroup}
    {pattern endpoint : Text} {octets : Bytes} {subject : PublicKey} {token command : Text} {now : Int}
    {circumstances : Circumstances} {keyId : Text} {validBefore : Int} {decoder : Token.Decoder}
    (hconfig : ((Config.parse files text).run.run {}).1 = .ok config) (hg : g ∈ config.groups)
    (hsubject : PublicKey.ofBytes octets = .ok subject)
    (h : Proper decoder (g.info pattern endpoint) subject token command now circumstances keyId
      validBefore) :
    (∃ c, issueAt decoder (g.info pattern endpoint) subject token command now circumstances = .ok c) ↔
      subject.NameAgrees ∧ g.userKeys.privateKey.value.HasRoom := by
  obtain ⟨hsound, hcan, hblob⟩ := Config.sound_userKeys_of_parse hconfig hg
  exact h.exists_issueAt_iff (PublicKey.all_ofBytes octets subject hsubject) hsound hcan hblob

/-! ### Certificates issued and refused -/

namespace Sample

open Certificate.Sample (subject)
open Service.Sample (plain)

/-- What the hour of the sample asks of the group, the key and the signature. -/
theorem proper {info : HostInfo} {subject : PublicKey} (hduration : info.duration = 3600)
    (hfits : ∀ f ∈ ((draftAt subject "oinit-switch" 1000 circumstances "oinit-ca" 4600).fields
        info.userKeys.privateKey.value.publicPart).toOption,
      f.fits = true ∧
        ∀ s ∈ info.userKeys.privateKey.value.sign? circumstances.oneTime f.encode,
          Wire.fits s = true)
    (hholds : ∀ f ∈ ((draftAt subject "oinit-switch" 1000 circumstances "oinit-ca" 4600).fields
        info.userKeys.privateKey.value.publicPart).toOption,
      ∀ s ∈ info.userKeys.privateKey.value.sign? circumstances.oneTime f.encode,
        info.userKeys.privateKey.value.publicPart.material.verify f.encode s = true) :
    Proper decoder info subject "t" "oinit-switch" 1000 circumstances "oinit-ca" 4600 where
  command_ne_nil := by decide
  encodesCommand := by decide
  names := Except.toOption_eq_some_iff.mp (by decide +kernel)
  encodesKeyId := by decide
  serial := by decide
  window := by
    unfold Token.validityWindow
    rw [hduration]
    rfl
  begins := ⟨by decide, Rat.le_refl⟩
  ends := ⟨by decide, by decide⟩
  fits := hfits
  holds := hholds

theorem proper_subject : Proper decoder (info plain) subject "t" "oinit-switch" 1000 circumstances
    "oinit-ca" 4600 := by
  -- the certificate of the sample was signed and checked, so nothing is computed again
  obtain ⟨f, s, hf, hfits, hs, hsignature, hcertificate⟩ := Draft.sign_eq_ok_iff.mp sign_eq
  obtain ⟨-, -, -, -, hverify, -⟩ := good_of_issueAt (issueAt_eq plain)
  rw [hcertificate] at hverify
  have hfields {f' : CertificateFields KeyMaterial}
      (hf' : f' ∈ ((draftAt subject "oinit-switch" 1000 circumstances "oinit-ca" 4600).fields
        (info plain).userKeys.privateKey.value.publicPart).toOption) : f' = f :=
    Except.ok.inj ((Except.toOption_eq_some_iff.mp hf').symm.trans hf)
  refine proper rfl (fun f' hf' => ?_) (fun f' hf' s' hs' => ?_)
  · obtain rfl := hfields hf'
    exact ⟨hfits, fun s' hs' => Option.some.inj (hs.symm.trans hs') ▸ hsignature⟩
  · obtain rfl := hfields hf'
    obtain rfl : s = s' := Option.some.inj (hs.symm.trans hs')
    exact hverify

theorem hasRoom : privateKey.HasRoom := by
  intro e n h
  cases h
  decide +kernel

/-- A key on one curve under the name of another. -/
def foreign : PublicKey :=
  ⟨.ecdsa .nistp256, .ecdsa .nistp384 (Curve.nistp384.encodePoint Curve.nistp384.domain.gx
    Curve.nistp384.domain.gy), none, rfl⟩

theorem proper_foreign : Proper decoder (info plain) foreign "t" "oinit-switch" 1000 circumstances
    "oinit-ca" 4600 :=
  proper rfl (by decide +kernel) (by decide +kernel)

/-- An RSA key of one octet. -/
def shortKey : PrivateKey := ⟨.ofMaterial (.rsa 3 55), .rsa ⟨7, 11, 5, 7, 3, 9⟩⟩

/-- The two halves of this key in files. -/
def shortFiles : FileTree where
  working := []
  homes := ⟨"/root", []⟩
  entries := [([Bytes.ofString "ca"], .file ([0x30, 0x1B, 0x02, 0x01, 0x00] ++
      [55, 3, 7, 11, 5, 7, 3, 9].flatMap Service.Sample.derInteger)),
    ([Bytes.ofString "ca.pub"], .file shortKey.publicPart.line)]

/-- The group of the sample with this key. -/
def shortGroup : HostGroup :=
  let keys := ⟨⟨0, shortKey⟩, ⟨1, shortKey.publicPart⟩⟩
  { group plain with hostKeys := keys, userKeys := keys }

theorem parse_short : ((Config.parse shortFiles (Service.Sample.text plain)).run.run {}).1 =
    .ok ⟨[shortGroup]⟩ :=
  Except.toOption_eq_some_iff.mp (by decide +kernel)

theorem proper_short : Proper decoder (shortGroup.info "login.example.org" plain) subject "t"
    "oinit-switch" 1000 circumstances "oinit-ca" 4600 :=
  proper rfl (by decide +kernel) (by decide +kernel)

theorem ofBytes_subject : PublicKey.ofBytes subject.line = .ok subject :=
  Except.toOption_eq_some_iff.mp (by decide +kernel)

theorem ofBytes_foreign : PublicKey.ofBytes foreign.line = .ok foreign :=
  Except.toOption_eq_some_iff.mp (by decide +kernel)

end Sample

/-- The user is issued a certificate. -/
theorem accepted_sample :
    ((Config.parse Service.Sample.files (Service.Sample.text Service.Sample.plain)).run.run {}).1 =
        .ok ⟨[Sample.group Service.Sample.plain]⟩ ∧
      PublicKey.ofBytes Certificate.Sample.subject.line = .ok Certificate.Sample.subject ∧
      Proper Sample.decoder (Sample.info Service.Sample.plain) Certificate.Sample.subject "t"
        "oinit-switch" 1000 Sample.circumstances "oinit-ca" 4600 ∧
      ∃ c, issueAt Sample.decoder (Sample.info Service.Sample.plain) Certificate.Sample.subject "t"
        "oinit-switch" 1000 Sample.circumstances = .ok c :=
  ⟨Service.Sample.parse_plain, Sample.ofBytes_subject, Sample.proper_subject,
    (accepted_iff_of_parse Service.Sample.parse_plain (List.mem_singleton_self _)
      Sample.ofBytes_subject Sample.proper_subject).mpr ⟨by decide, Sample.hasRoom⟩⟩

/-- A key under the name of another curve is refused after signing, and with a short key nothing is
signed, though the certificates can be written and the keys are imported. -/
theorem refused_sample :
    (((Config.parse Service.Sample.files (Service.Sample.text Service.Sample.plain)).run.run {}).1 =
        .ok ⟨[Sample.group Service.Sample.plain]⟩ ∧
      PublicKey.ofBytes Sample.foreign.line = .ok Sample.foreign ∧
      Proper Sample.decoder (Sample.info Service.Sample.plain) Sample.foreign "t" "oinit-switch" 1000
        Sample.circumstances "oinit-ca" 4600 ∧
      issueAt Sample.decoder (Sample.info Service.Sample.plain) Sample.foreign "t" "oinit-switch" 1000
        Sample.circumstances = .error (.validation .wrongSubject)) ∧
    ((Config.parse Sample.shortFiles (Service.Sample.text Service.Sample.plain)).run.run {}).1 =
        .ok ⟨[Sample.shortGroup]⟩ ∧
      PublicKey.ofBytes Certificate.Sample.subject.line = .ok Certificate.Sample.subject ∧
      Proper Sample.decoder (Sample.shortGroup.info "login.example.org" Service.Sample.plain)
        Certificate.Sample.subject "t" "oinit-switch" 1000 Sample.circumstances "oinit-ca" 4600 ∧
      issueAt Sample.decoder (Sample.shortGroup.info "login.example.org" Service.Sample.plain)
        Certificate.Sample.subject "t" "oinit-switch" 1000 Sample.circumstances =
          .error (.signing (.construction .badValue)) := by
  refine ⟨⟨Service.Sample.parse_plain, Sample.ofBytes_foreign, Sample.proper_foreign, ?_⟩,
    Sample.parse_short, Sample.ofBytes_subject, Sample.proper_short, ?_⟩
  · obtain ⟨hsound, hcan, hblob⟩ :=
      Config.sound_userKeys_of_parse Service.Sample.parse_plain (List.mem_singleton_self _)
    obtain ⟨f, hf⟩ := Sample.proper_foreign.exists_fields
    obtain ⟨s, hs⟩ := (PrivateKey.exists_sign?_iff hsound hcan 1 f.encode).mpr Sample.hasRoom
    have hsubject := PublicKey.all_ofBytes _ _ Sample.ofBytes_foreign
    rw [Sample.proper_foreign.issueAt_of_sign? hsubject hsound.material hblob hf hs]
    exact if_neg (by decide)
  · obtain ⟨hsound, hcan, -⟩ :=
      Config.sound_userKeys_of_parse Sample.parse_short (List.mem_singleton_self _)
    obtain ⟨f, hf⟩ := Sample.proper_short.exists_fields
    rcases hs : Sample.shortKey.sign? 1 f.encode with - | s
    · exact Sample.proper_short.issueAt_of_sign?_eq_none hf hs
    · have hroom := (PrivateKey.exists_sign?_iff hsound hcan 1 f.encode).mp ⟨s, hs⟩
      exact absurd (hroom 3 55 rfl) (by decide)

end Issue

end SshAuthority
