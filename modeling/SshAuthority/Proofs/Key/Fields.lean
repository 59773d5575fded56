/-
SshAuthority/Proofs/Key/Fields.lean

Public keys read back from their wire encoding.

The name in front of a key tells the reader which fields follow. As the material of a
key is of the kind that the name says, the fields are read as they were written; and
what the checks make of them is the material again. So two keys with one wire encoding
that can be written are one key but for the comment.

Main results: `read_encode`, with any octets after the fields, and
`eq_of_ofBlob_blob` for a key by itself.
-/
import SshAuthority.Key.Public
import SshAuthority.Proofs.Encoding.Wire

namespace SshAuthority

/-! ### Names -/

theorem Curve.ofName?_name (c : Curve) : Curve.ofName? c.name = some c := by
  cases c <;> rfl

namespace KeyAlgorithm

/-- The list of algorithms lists all, so what is decided for the list holds of all. -/
theorem mem_all (a : KeyAlgorithm) : a ∈ all := by
  rcases a with - | - | - | - | curve | - | -
  case ecdsa => cases curve <;> decide
  all_goals decide

theorem ofName?_name (a : KeyAlgorithm) : ofName? a.name = some a := by
  have hall : ∀ a ∈ all, ofName? a.name = some a := by decide
  exact hall a a.mem_all

/-- The certificate type of an algorithm is one of no other. -/
theorem ofCertificateType?_certificateType (a : KeyAlgorithm) :
    ofCertificateType? a.certificateType = some a := by
  have hall : ∀ a ∈ all, ofCertificateType? a.certificateType = some a := by decide
  exact hall a a.mem_all

/-- The types of certificates may begin a line. -/
theorem certificateType_mem_lineNames (a : KeyAlgorithm) : a.certificateType ∈ lineNames := by
  have hall : ∀ a ∈ all, a.certificateType ∈ a.certificateTypes := by decide
  exact List.mem_append_right _ (List.mem_flatMap.mpr ⟨a, a.mem_all, hall a a.mem_all⟩)

/-- So may the names of keys. -/
theorem name_mem_lineNames (a : KeyAlgorithm) : a.name ∈ lineNames :=
  List.mem_append_left _ (List.mem_map_of_mem a.mem_all)

/-- What may begin a line is a word that begins with a small letter. -/
theorem exists_cons_of_mem_lineNames {name : Bytes} (h : name ∈ lineNames) :
    ∃ c rest, name = c :: rest ∧ 0x61 ≤ c ∧ ∀ x ∈ name, 0x21 ≤ x ∧ x ≤ 0x7E := by
  have hall : ∀ name ∈ lineNames,
      name.head?.any (0x61 ≤ ·) = true ∧ name.all (fun x => 0x21 ≤ x && x ≤ 0x7E) = true := by
    decide
  obtain ⟨hhead, hvisible⟩ := hall name h
  rcases name with - | ⟨c, rest⟩
  · cases hhead
  refine ⟨c, rest, rfl, of_decide_eq_true hhead, fun x hx => ?_⟩
  have hx := List.all_eq_true.mp hvisible x hx
  rwa [Bool.and_eq_true, decide_eq_true_iff, decide_eq_true_iff] at hx

theorem fits_name (a : KeyAlgorithm) : Wire.fits a.name = true := by
  have hall : ∀ a ∈ all, Wire.fits a.name = true := by decide
  exact hall a a.mem_all

end KeyAlgorithm

/-! ### Fields -/

namespace KeyFields

/-- The curve of a curve's name is that curve. -/
theorem eq_of_curveOf?_name {c c' : Curve} {point : Bytes}
    (h : curveOf? c.name point = .ok c') : c' = c := by
  obtain ⟨d, hd, h⟩ := Except.bind_eq_ok_iff.mp h
  simp only [curve?, Curve.ofName?_name, Except.ok.injEq] at hd
  subst hd
  split at h <;> cases h
  rfl

/-- A DSA key has the numbers that it was made of. -/
theorem eq_of_dsaKey? {p q g y : Int} {k : Dsa.Public} (h : dsaKey? p q g y = .ok k) :
    k = ⟨p.toNat, q.toNat, g.toNat, y.toNat⟩ := by
  simp only [dsaKey?] at h
  split at h <;> cases h
  rfl

end KeyFields

namespace KeyMaterial

/-- The fields that stand for the material in a packet. -/
def fields : KeyMaterial → KeyFields
  | .ed25519 point => .ed25519 point
  | .ed448 point => .ed448 point
  | .rsa e n => .rsa e n
  | .dsa k => .dsa k.p k.q k.g k.y
  | .ecdsa curve point => .ecdsa curve.name point
  | .skEd25519 point application => .skEd25519 point application
  | .skEcdsa curve point application => .skEcdsa curve.name point application

/-- The strings of a key that fits fit. -/
theorem fits_strings {m : KeyMaterial} {b : Bytes} (hf : Wire.fits b = true)
    (hle : m.encode.length ≤ b.length) : m.strings.all Wire.fits = true := by
  refine List.all_eq_true.mpr fun s hs => Wire.fits_of_length_le hf (Nat.le_trans ?_ hle)
  -- a string is a part of the encoding
  obtain ⟨front, back, heq⟩ := List.append_of_mem hs
  rw [encode, heq, List.flatMap_append, List.flatMap_cons]
  simp only [List.length_append, Wire.length_putString]
  omega

/-- The fields of a key are read as they were written. -/
theorem read_encode {m : KeyMaterial} {a : KeyAlgorithm} (hs : m.suits a = true)
    (hf : m.strings.all Wire.fits = true) (rest : Bytes) :
    KeyFields.read a (m.encode ++ rest) = some (m.fields, rest) := by
  -- one algorithm suits each kind of material, and it reads the strings in the same order
  cases m <;> cases a <;> cases hs <;>
    simp only [strings, List.all_cons, List.all_nil, Bool.and_true, Bool.and_eq_true] at hf <;>
    simp only [encode, strings, List.flatMap_cons, List.flatMap_nil, List.append_nil,
      List.append_assoc, KeyFields.read]
  case ed25519.ed25519 point =>
    rw [Wire.bind_of_eq_some (Wire.string_putString hf _)]
    rfl
  case ed448.ed448 point =>
    rw [Wire.bind_of_eq_some (Wire.string_putString hf _)]
    rfl
  case rsa.rsa e n =>
    rw [Wire.bind_of_eq_some (Wire.mpint_putString hf.1 _),
      Wire.bind_of_eq_some (Wire.mpint_putString hf.2 _)]
    rfl
  case dsa.dsa k =>
    obtain ⟨hp, hq, hg, hy⟩ := hf
    rw [Wire.bind_of_eq_some (Wire.mpint_putString hp _),
      Wire.bind_of_eq_some (Wire.mpint_putString hq _),
      Wire.bind_of_eq_some (Wire.mpint_putString hg _),
      Wire.bind_of_eq_some (Wire.mpint_putString hy _)]
    rfl
  case ecdsa.ecdsa curve point _ =>
    rw [Wire.bind_of_eq_some (Wire.string_putString hf.1 _),
      Wire.bind_of_eq_some (Wire.string_putString hf.2 _)]
    rfl
  case skEd25519.skEd25519 point application =>
    rw [Wire.bind_of_eq_some (Wire.string_putString hf.1 _),
      Wire.bind_of_eq_some (Wire.string_putString hf.2 _)]
    rfl
  case skEcdsa.skEcdsa curve point application =>
    obtain ⟨hcurve, hpoint, happlication⟩ := hf
    rw [Wire.bind_of_eq_some (Wire.string_putString hcurve _),
      Wire.bind_of_eq_some (Wire.string_putString hpoint _),
      Wire.bind_of_eq_some (Wire.string_putString happlication _)]
    rfl

/-- The checks make nothing else of the fields of material. -/
theorem eq_of_material?_fields {m m' : KeyMaterial} (h : m.fields.material? = .ok m') : m' = m := by
  cases m <;>
    simp only [fields, KeyFields.material?, Except.bind_eq_ok_iff, Except.pure_eq_ok_iff] at h
  case ed25519 point =>
    split at h <;> cases h
    rfl
  case ed448 point =>
    split at h <;> cases h
    rfl
  case rsa e n =>
    split at h <;> cases h
    rfl
  case dsa k =>
    obtain ⟨k', hk, rfl⟩ := h
    rw [KeyFields.eq_of_dsaKey? hk]
    rfl
  case ecdsa curve point =>
    obtain ⟨c, hc, rfl⟩ := h
    rw [KeyFields.eq_of_curveOf?_name hc]
  case skEd25519 point application =>
    split at h <;> cases h
    rfl
  case skEcdsa curve point application =>
    obtain ⟨c, hc, rfl⟩ := h
    rw [KeyFields.eq_of_curveOf?_name hc]

/-- A name that fields make is short. -/
theorem fits_name (m : KeyMaterial) : Wire.fits m.name = true := by
  cases m
  case skEcdsa curve point application =>
    show Wire.fits (Bytes.ofString "sk-ecdsa-sha2-" ++ curve.name ++ "@openssh.com") = true
    cases curve <;> decide
  all_goals
    simp only [name]
    exact KeyAlgorithm.fits_name _

/-- If the name that the fields make is that of any algorithm, it is that of their own. -/
theorem name_eq_of_eq_name {m : KeyMaterial} {a : KeyAlgorithm} (h : m.name = a.name) :
    m.name = m.algorithm.name := by
  cases m
  case skEcdsa curve point application =>
    cases curve
    case nistp256 => rfl
    -- no algorithm is named after a security key on another curve
    all_goals
      have hknown := KeyAlgorithm.ofName?_name a
      rw [← h] at hknown
      cases hknown
  all_goals rfl

end KeyMaterial

/-! ### Keys -/

namespace PublicKey

/-- Keys with one algorithm and one material have one encoding. -/
theorem blob_congr {k k' : PublicKey} (halgorithm : k.algorithm = k'.algorithm)
    (hmaterial : k.material = k'.material) : k.blob = k'.blob := by
  rw [blob, blob, halgorithm, hmaterial]

/-- The encodings of a key and of material agree if and only if the key is of the material and goes
by the name that its fields make. -/
theorem blob_eq_iff {m : KeyMaterial} {k : PublicKey} :
    m.blob = k.blob ↔ m.name = k.algorithm.name ∧ m.encode = k.material.encode := by
  constructor
  · intro h
    have hstring := Wire.string_putString m.fits_name m.encode
    rw [show Wire.putString m.name ++ m.encode = k.blob from h, blob,
      Wire.string_putString k.algorithm.fits_name] at hstring
    obtain ⟨hname, hencode⟩ := Prod.mk.inj (Option.some.inj hstring)
    exact ⟨hname.symm, hencode.symm⟩
  · rintro ⟨hname, hencode⟩
    rw [KeyMaterial.blob, blob, hname, hencode]

/-- Material that is encoded as some key is encoded as a key by itself, too. -/
theorem blob_ofMaterial_of_blob {m : KeyMaterial} {k : PublicKey} (h : m.blob = k.blob) :
    (ofMaterial m).blob = k.blob := by
  rw [← h]
  show Wire.putString m.algorithm.name ++ m.encode = Wire.putString m.name ++ m.encode
  rw [KeyMaterial.name_eq_of_eq_name (blob_eq_iff.mp h).1]

/-- A key made of fields has the given algorithm and the material that the checks make. -/
theorem of_ofFields {a : KeyAlgorithm} {f : KeyFields} {suits : f.suits a = true} {k : PublicKey}
    (h : ofFields a f suits = .ok k) : k.algorithm = a ∧ f.material? = .ok k.material := by
  unfold ofFields at h
  split at h
  · cases h
  · next m hm =>
    cases h
    exact ⟨rfl, hm⟩

/-- A key made of fields has no comment. -/
theorem comment_of_ofFields {a : KeyAlgorithm} {f : KeyFields} {suits : f.suits a = true}
    {k : PublicKey} (h : ofFields a f suits = .ok k) : k.comment = none := by
  unfold ofFields at h
  split at h <;> cases h
  rfl

/-- The strings of a key whose encoding fits fit. -/
theorem fits_strings {k : PublicKey} (hf : Wire.fits k.blob = true) :
    k.material.strings.all Wire.fits = true := by
  refine KeyMaterial.fits_strings hf ?_
  rw [blob, List.length_append]
  exact Nat.le_add_left _ _

/-- What is read from the wire encoding of a key are its algorithm and the fields of its material. -/
theorem ofBlob_blob {k : PublicKey} (hstrings : k.material.strings.all Wire.fits = true) :
    ∃ suits, ofBlob k.blob = ofFields k.algorithm k.material.fields suits := by
  have hname : Wire.string k.blob = some (k.algorithm.name, k.material.encode) :=
    Wire.string_putString k.algorithm.fits_name _
  have hread : Wire.whole? (KeyFields.read k.algorithm) k.material.encode = some k.material.fields := by
    refine Wire.whole?_eq_some_iff.mpr ?_
    rw [← List.append_nil k.material.encode]
    exact KeyMaterial.read_encode k.suits hstrings []
  refine ⟨KeyFields.suits_of_whole? hread, ?_⟩
  -- the reader takes the name, finds the algorithm, and reads the fields to the end
  unfold ofBlob
  split
  · next hnone =>
    rw [hname] at hnone
    cases hnone
  next name rest hstring =>
  rw [hname] at hstring
  cases hstring
  split
  · next hnone =>
    rw [KeyAlgorithm.ofName?_name] at hnone
    cases hnone
  next a ha =>
  rw [KeyAlgorithm.ofName?_name] at ha
  cases ha
  split
  · next hnone =>
    rw [hread] at hnone
    cases hnone
  next f hfields =>
  rw [hread] at hfields
  cases hfields
  rfl

/-- A key read from the wire encoding of a key is that key, without its comment. -/
theorem eq_of_ofBlob_blob {k k' : PublicKey} (hstrings : k.material.strings.all Wire.fits = true)
    (h : ofBlob k.blob = .ok k') : k'.algorithm = k.algorithm ∧ k'.material = k.material := by
  obtain ⟨suits, hblob⟩ := ofBlob_blob hstrings
  rw [hblob] at h
  obtain ⟨halgorithm, hmaterial⟩ := of_ofFields h
  exact ⟨halgorithm, KeyMaterial.eq_of_material?_fields hmaterial⟩

end PublicKey

end SshAuthority
