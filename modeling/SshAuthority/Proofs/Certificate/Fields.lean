/-
SshAuthority/Proofs/Certificate/Fields.lean

The fields of a certificate read back.

The type in front of the fields tells the reader which key follows, as the name does in
front of a key. Each field is read as it was written, whatever follows, and so are all of
them in turn.

Main results: `read_encode`, and `advances_read` for what the reader leaves.
-/
import SshAuthority.Certificate.Fields
import SshAuthority.Proofs.Key.Fields

namespace SshAuthority

/-! ### What is left -/

theorem KeyFields.advances_read (a : KeyAlgorithm) : Wire.Advances (KeyFields.read a) := by
  cases a with
  | ed25519 | ed448 => exact .bind .string fun _ => .pure _
  | rsa => exact .bind .mpint fun _ => .bind .mpint fun _ => .pure _
  | dsa =>
    exact .bind .mpint fun _ => .bind .mpint fun _ => .bind .mpint fun _ => .bind .mpint fun _ =>
      .pure _
  | ecdsa curve => exact .bind .string fun _ => .bind .string fun _ => .pure _
  | skEd25519 => exact .bind .string fun _ => .bind .string fun _ => .pure _
  | skEcdsa => exact .bind .string fun _ => .bind .string fun _ => .bind .string fun _ => .pure _

namespace CertificateFields

/-- The algorithm of a type is found without taking anything. -/
theorem subjectAlgorithm_eq_some_iff {type b rest : Bytes} {a : KeyAlgorithm} :
    subjectAlgorithm type b = some (a, rest) ↔
      KeyAlgorithm.ofCertificateType? type = some a ∧ rest = b := by
  unfold subjectAlgorithm
  rcases KeyAlgorithm.ofCertificateType? type with - | a' <;> simp [eq_comm]

theorem advances_subjectAlgorithm (type : Bytes) : Wire.Advances (subjectAlgorithm type) := by
  intro b a rest h
  obtain ⟨-, rfl⟩ := subjectAlgorithm_eq_some_iff.mp h
  exact List.suffix_refl rest

/-- The fields stand at the front of the packet. -/
theorem advances_read : Wire.Advances read :=
  .bind .string fun _ => .bind (advances_subjectAlgorithm _) fun _ => .bind .string fun _ =>
    .bind (KeyFields.advances_read _) fun _ => .bind .uint64 fun _ => .bind .uint32 fun _ =>
    .bind .string fun _ => .bind .string fun _ => .bind .uint64 fun _ => .bind .uint64 fun _ =>
    .bind .string fun _ => .bind .string fun _ => .bind .string fun _ => .bind .string fun _ =>
    .pure _

/-! ### Writing and reading -/

/-- The fields as they stand in a packet. -/
def raw (f : CertificateFields KeyMaterial) : CertificateFields KeyFields :=
  { f with subject := f.subject.fields }

/-- The fields of a certificate are read as they were written. -/
theorem read_encode {f : CertificateFields KeyMaterial} {a : KeyAlgorithm}
    (ht : f.type = a.certificateType) (hs : f.subject.suits a = true) (hf : f.fits = true)
    (hserial : f.serial < 2 ^ 64) (hkind : f.kind < 2 ^ 32) (hafter : f.validAfter < 2 ^ 64)
    (hbefore : f.validBefore < 2 ^ 64) (rest : Bytes) :
    read (f.encode ++ rest) = some (f.raw, rest) := by
  simp only [fits, List.cons_append, List.nil_append, List.all_cons, Bool.and_eq_true] at hf
  obtain ⟨htype, hnonce, hkeyId, hprincipals, hcritical, hextensions, hreserved, hsigner, hsubject⟩ := hf
  have halgorithm (b : Bytes) : subjectAlgorithm f.type b = some (a, b) := by
    refine subjectAlgorithm_eq_some_iff.mpr ⟨?_, rfl⟩
    rw [ht, KeyAlgorithm.ofCertificateType?_certificateType]
  -- field by field: each is read from the front, and the others are what follows it
  simp only [encode, List.append_assoc, read]
  rw [Wire.bind_of_eq_some (Wire.string_putString htype _),
    Wire.bind_of_eq_some (halgorithm _),
    Wire.bind_of_eq_some (Wire.string_putString hnonce _),
    Wire.bind_of_eq_some (KeyMaterial.read_encode hs hsubject _),
    Wire.bind_of_eq_some (Wire.uint64_putUint64 hserial _),
    Wire.bind_of_eq_some (Wire.uint32_putUint32 hkind _),
    Wire.bind_of_eq_some (Wire.string_putString hkeyId _),
    Wire.bind_of_eq_some (Wire.string_putString hprincipals _),
    Wire.bind_of_eq_some (Wire.uint64_putUint64 hafter _),
    Wire.bind_of_eq_some (Wire.uint64_putUint64 hbefore _),
    Wire.bind_of_eq_some (Wire.string_putString hcritical _),
    Wire.bind_of_eq_some (Wire.string_putString hextensions _),
    Wire.bind_of_eq_some (Wire.string_putString hreserved _),
    Wire.bind_of_eq_some (Wire.string_putString hsigner _)]
  rfl

end CertificateFields

end SshAuthority
