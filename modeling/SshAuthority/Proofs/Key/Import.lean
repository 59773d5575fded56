/-
SshAuthority/Proofs/Key/Import.lean

Keys as they come of any file or text.

There are many forms in which a key can stand in a file, and every way from a form to a key
ends in one of a few places where its numbers are checked. The checks, made again on the
fields that the material of the key is written as, come to the same material
(`KeyMaterial.Sound`), so what was imported once can be imported again from its own
encoding. A private key is sound if its public part is, goes by the name of its material,
and has a secret of the kind that its material asks for; such a key signs, if it is of an
algorithm that does so unattended and, for RSA, long enough for the digest.

A key made of fields has no comment (`Plain`). A private key gets one in the format of OpenSSH
alone, a public key from a line or an RFC 4716 block alone.

Main results: `PublicKey.all_ofBytes` and `PrivateKey.all_ofBytes`, on every key that is
imported, and `PublicKey.comment_of_ofBytes` on its comment; `PublicKey.exists_ofBlob_blob` and
`PrivateKey.exists_sign?_iff`, on what such a key can do.
-/
import SshAuthority.Key.Import
import SshAuthority.Proofs.Encoding.Armor
import SshAuthority.Proofs.Key.Fields

/-! ### Outcomes -/

namespace Except

variable {ε α β : Type} {P : α → Prop} {Q : β → Prop}

/-- The value, if there is one, is so. -/
def All (P : α → Prop) (x : Except ε α) : Prop := ∀ a, x = .ok a → P a

theorem All.error (e : ε) : All P (.error e : Except ε α) := by
  intro a h
  cases h

theorem All.ok {a : α} (h : P a) : All P (.ok a : Except ε α) := by
  intro b hb
  cases hb
  exact h

theorem All.bind {x : Except ε α} {next : α → Except ε β} (hx : All P x)
    (hnext : ∀ a, P a → All Q (next a)) : All Q (x >>= next) := by
  intro b hb
  obtain ⟨a, ha, hb⟩ := bind_eq_ok_iff.mp hb
  exact hnext a (hx a ha) b hb

theorem All.map {x : Except ε α} {f : α → β} (hx : All P x) (hf : ∀ a, P a → Q (f a)) :
    All Q (x.map f) := by
  intro b hb
  obtain ⟨a, ha, rfl⟩ := map_eq_ok_iff.mp hb
  exact hf a (hx a ha)

theorem All.mono {P' : α → Prop} {x : Except ε α} (hx : All P x) (h : ∀ a, P a → P' a) : All P' x :=
  fun a ha => h a (hx a ha)

/-- Where there is nothing, there is a fault. -/
theorem All.getD {o : Option (Except ε α)} (ho : ∀ x, o = some x → All P x) (e : ε) :
    All P (o.getD (.error e)) := by
  rcases o with - | x
  · exact .error e
  · exact ho x rfl

end Except

namespace SshAuthority

/-! ### Material -/

namespace KeyFields

theorem curveOf?_eq_ok_iff {name point : Bytes} {c : Curve} :
    curveOf? name point = .ok c ↔ curve? name = .ok c ∧ (c.decodePoint? point).isSome = true := by
  unfold curveOf?
  rw [Except.bind_eq_ok_iff]
  constructor
  · rintro ⟨c', hc, h⟩
    split at h
    · next hpoint =>
      cases h
      exact ⟨hc, hpoint⟩
    · cases h
  · rintro ⟨hc, hpoint⟩
    exact ⟨c, hc, if_pos hpoint⟩

/-- The curve of a curve's name, with a point that lies on it. -/
theorem curveOf?_name {c : Curve} {point : Bytes} (h : (c.decodePoint? point).isSome = true) :
    curveOf? c.name point = .ok c := by
  refine curveOf?_eq_ok_iff.mpr ⟨?_, h⟩
  unfold curve?
  rw [Curve.ofName?_name]

/-- A DSA key is that of its own numbers. -/
theorem dsaKey?_of_dsaKey? {p q g y : Int} {k : Dsa.Public} (h : dsaKey? p q g y = .ok k) :
    dsaKey? k.p k.q k.g k.y = .ok k := by
  obtain ⟨⟨⟨⟨hp, hq⟩, hg⟩, hy⟩, -⟩ :
      (((0 ≤ p ∧ 0 ≤ q) ∧ 0 ≤ g) ∧ 0 ≤ y) ∧ Dsa.isPublicKey ⟨p.toNat, q.toNat, g.toNat, y.toNat⟩ := by
    unfold dsaKey? at h
    dsimp only at h
    split at h
    · next hnumbers => simpa only [Bool.and_eq_true, decide_eq_true_eq] using hnumbers
    · cases h
  have hk := eq_of_dsaKey? h
  subst hk
  show dsaKey? (p.toNat : Int) (q.toNat : Int) (g.toNat : Int) (y.toNat : Int) = _
  rw [Int.toNat_of_nonneg hp, Int.toNat_of_nonneg hq, Int.toNat_of_nonneg hg,
    Int.toNat_of_nonneg hy]
  exact h

end KeyFields

namespace KeyMaterial

/-- The checks on the fields of the material come to the material. -/
def Sound (m : KeyMaterial) : Prop := m.fields.material? = .ok m

namespace Sound

theorem ed25519 {point : Bytes} (h : point.length = 32) : Sound (.ed25519 point) := if_pos h

theorem ed448 {point : Bytes} (h : point.length = 57) : Sound (.ed448 point) := if_pos h

theorem rsa {n e : Int} (h : Rsa.isPublicKey n e = true) : Sound (.rsa e.toNat n.toNat) := by
  obtain ⟨⟨⟨hn, he⟩, -⟩, -⟩ : ((3 ≤ n ∧ 3 ≤ e) ∧ e < n) ∧ e % 2 = 1 := by
    simpa only [Rsa.isPublicKey, Bool.and_eq_true, decide_eq_true_eq] using h
  have hfields : fields (.rsa e.toNat n.toNat) = .rsa e n := by
    show KeyFields.rsa (e.toNat : Int) (n.toNat : Int) = _
    rw [Int.toNat_of_nonneg (Int.le_trans (by decide) he),
      Int.toNat_of_nonneg (Int.le_trans (by decide) hn)]
  unfold Sound
  rw [hfields]
  exact if_pos h

theorem dsa {p q g y : Int} {k : Dsa.Public} (h : KeyFields.dsaKey? p q g y = .ok k) :
    Sound (.dsa k) :=
  Except.bind_eq_ok_iff.mpr ⟨k, KeyFields.dsaKey?_of_dsaKey? h, rfl⟩

theorem ecdsa {c : Curve} {point : Bytes} (h : (c.decodePoint? point).isSome = true) :
    Sound (.ecdsa c point) :=
  Except.bind_eq_ok_iff.mpr ⟨c, KeyFields.curveOf?_name h, rfl⟩

end Sound

/-- What the checks have made of any fields is sound. -/
theorem sound_of_material? {f : KeyFields} {m : KeyMaterial} (h : f.material? = .ok m) : m.Sound := by
  cases f <;> simp only [KeyFields.material?, Except.bind_eq_ok_iff, Except.pure_eq_ok_iff] at h
  case ed25519 point =>
    split at h <;> cases h
    next hlength => exact .ed25519 hlength
  case ed448 point =>
    split at h <;> cases h
    next hlength => exact .ed448 hlength
  case rsa e n =>
    split at h <;> cases h
    next hkey => exact .rsa hkey
  case dsa p q g y =>
    obtain ⟨k, hk, rfl⟩ := h
    exact .dsa hk
  case ecdsa name point =>
    obtain ⟨c, hc, rfl⟩ := h
    exact .ecdsa (KeyFields.curveOf?_eq_ok_iff.mp hc).2
  case skEd25519 point application =>
    split at h <;> cases h
    next hlength => exact if_pos hlength
  case skEcdsa name point application =>
    obtain ⟨c, hc, rfl⟩ := h
    have hpoint := (KeyFields.curveOf?_eq_ok_iff.mp hc).2
    exact Except.bind_eq_ok_iff.mpr ⟨c, KeyFields.curveOf?_name hpoint, rfl⟩

end KeyMaterial

theorem Edwards.length_publicKey (c : Edwards.Scheme) (seed : Bytes) :
    (Edwards.publicKey c seed).length = c.size :=
  Bytes.length_ofNatLE _ _

/-! ### Private keys -/

/-- The secret is of the kind that goes with the material. -/
def KeySecret.Suits : KeySecret → KeyMaterial → Prop
  | .seed _, .ed25519 _ | .seed _, .ed448 _ | .rsa _, .rsa _ _ | .number _, .dsa _
  | .number _, .ecdsa _ _ | .device, .skEd25519 _ _ | .device, .skEcdsa _ _ _ => True
  | _, _ => False

namespace PrivateKey

/-- The public part is sound and named by its material, and the secret goes with it. -/
structure Sound (k : PrivateKey) : Prop where
  material : k.publicPart.material.Sound
  algorithm : k.publicPart.algorithm = k.publicPart.material.algorithm
  secret : k.secret.Suits k.publicPart.material

/-- The key is sound and has no comment. -/
structure Plain (k : PrivateKey) : Prop extends Sound k where
  comment : k.publicPart.comment = none

theorem plain_ofMaterial {m : KeyMaterial} {secret : KeySecret} (hm : m.Sound)
    (hsecret : secret.Suits m) : Plain ⟨.ofMaterial m, secret⟩ := ⟨⟨hm, rfl, hsecret⟩, rfl⟩

theorem all_ofSeed25519 (seed : Bytes) : (ofSeed25519 seed).All Plain := by
  unfold ofSeed25519
  split
  · exact .ok (plain_ofMaterial (.ed25519 (Edwards.length_publicKey _ seed)) trivial)
  · exact .error _

theorem all_ofSeed448 (seed : Bytes) : (ofSeed448 seed).All Plain := by
  unfold ofSeed448
  split
  · exact .ok (plain_ofMaterial (.ed448 (Edwards.length_publicKey _ seed)) trivial)
  · exact .error _

theorem all_ofRsa (n e d p q : Int) (exponents : Option (Int × Int)) (qInverse : Int) :
    (ofRsa n e d p q exponents qInverse).All Plain := by
  intro k h
  unfold ofRsa at h
  extract_lets given secret at h
  split at h
  · next hnumbers =>
    split at h <;> cases h
    exact plain_ofMaterial (.rsa (Bool.and_eq_true_iff.mp hnumbers).1) trivial
  · cases h

theorem all_ofDsa (p q g y x : Int) : (ofDsa p q g y x).All Plain := by
  intro k h
  obtain ⟨key, hkey, h⟩ := Except.bind_eq_ok_iff.mp h
  split at h <;> cases h
  exact plain_ofMaterial (.dsa hkey) trivial

theorem all_ofCurve (c : Curve) (secret : Int) (point : Option Bytes) :
    (ofCurve c secret point).All Plain := by
  unfold ofCurve
  split
  · exact .error _
  split
  · exact .error _
  dsimp only
  split
  · next hpoint =>
    exact .ok (plain_ofMaterial (.ecdsa (Bool.and_eq_true_iff.mp hpoint).1) trivial)
  · exact .error _

/-- A key on a device, whose public part has passed the checks. -/
theorem all_ofDevice {f : KeyFields} {a : KeyAlgorithm} (hf : f.suits a = true)
    (ha : a = .skEd25519 ∨ a = .skEcdsa) :
    (do return ofDevice (← f.material?) : Except KeyFault PrivateKey).All Plain := by
  intro k h
  obtain ⟨m, hm, h⟩ := Except.bind_eq_ok_iff.mp h
  cases Except.pure_eq_ok_iff.mp h
  have hsuits := (KeyFields.suits_material? hm a).trans hf
  refine plain_ofMaterial (KeyMaterial.sound_of_material? hm) ?_
  rcases ha with rfl | rfl <;> cases m
  case inl.skEd25519 | inr.skEcdsa => trivial
  all_goals cases hsuits

/-- The comment of a key does not matter. -/
theorem Sound.withComment {k : PrivateKey} (h : k.Sound) (comment : Option Bytes) :
    Sound { k with publicPart := { k.publicPart with comment } } := ⟨h.material, h.algorithm, h.secret⟩

end PrivateKey

namespace OpenSsh

theorem all_of_secretFields {a : KeyAlgorithm} {b rest : Bytes} {x : Except KeyFault PrivateKey}
    (h : secretFields a b = some (x, rest)) : x.All PrivateKey.Plain := by
  cases a <;>
    simp only [secretFields, Wire.bind_eq_some_iff, Wire.pure_apply, Option.some.injEq,
      Prod.mk.injEq] at h
  case ed25519 =>
    obtain ⟨own, -, -, secret, -, -, rfl, -⟩ := h
    exact PrivateKey.all_ofSeed25519 _
  case ed448 =>
    obtain ⟨own, -, -, secret, -, -, rfl, -⟩ := h
    exact PrivateKey.all_ofSeed448 _
  case rsa =>
    obtain ⟨n, -, -, e, -, -, d, -, -, qInverse, -, -, p, -, -, q, -, -, rfl, -⟩ := h
    exact PrivateKey.all_ofRsa _ _ _ _ _ _ _
  case dsa =>
    obtain ⟨p, -, -, q, -, -, g, -, -, y, -, -, x, -, -, rfl, -⟩ := h
    exact PrivateKey.all_ofDsa _ _ _ _ _
  case ecdsa c =>
    obtain ⟨name, -, -, point, -, -, secret, -, -, rfl, -⟩ := h
    exact .bind (fun _ _ => trivial) fun c _ => PrivateKey.all_ofCurve _ _ _
  case skEd25519 =>
    obtain ⟨point, -, -, application, -, -, -, -, -, rfl, -⟩ := h
    exact PrivateKey.all_ofDevice rfl (.inl rfl)
  case skEcdsa =>
    obtain ⟨name, -, -, point, -, -, application, -, -, -, -, -, rfl, -⟩ := h
    exact PrivateKey.all_ofDevice rfl (.inr rfl)

theorem all_secretPart (b : Bytes) : (secretPart b).All PrivateKey.Sound := by
  unfold secretPart
  dsimp only
  split
  · exact .error _
  next x comment padding hparts =>
  split
  · simp only [Option.bind_eq_bind, Option.bind_eq_some_iff, Prod.exists] at hparts
    obtain ⟨first, b₁, -, second, b₂, -, hparts⟩ := hparts
    split at hparts
    · cases hparts
    · simp only [Option.bind_eq_some_iff, Prod.exists] at hparts
      obtain ⟨name, b₃, -, a, -, key, b₄, hkey, comment', padding', -, heq⟩ := hparts
      cases heq
      exact (all_of_secretFields hkey).map fun k hk => hk.toSound.withComment _
  · exact .error _

theorem all_privateKey (b : Bytes) : (privateKey b).All PrivateKey.Sound := by
  unfold privateKey
  dsimp only
  split
  · exact .error _
  · split
    · exact .error _
    · exact all_secretPart _

end OpenSsh

namespace Pkcs

theorem all_of_rsaPrivate? {d : Der} {x : Except KeyFault PrivateKey} (h : rsaPrivate? d = some x) :
    x.All PrivateKey.Plain := by
  unfold rsaPrivate? at h
  split at h <;> cases h
  exact PrivateKey.all_ofRsa _ _ _ _ _ _ _

/-- The key of a curve that may not have been found. -/
theorem all_ofCurve? (c : Option Curve) (secret : Int) (point : Option Bytes) :
    (match c with
      | some c => PrivateKey.ofCurve c secret point
      | none => .error .invalid : Except KeyFault PrivateKey).All PrivateKey.Plain := by
  rcases c with - | c
  · exact .error _
  · exact PrivateKey.all_ofCurve c secret point

theorem all_of_ecPrivate? {d : Der} {x : Except KeyFault PrivateKey} (h : ecPrivate? d = some x) :
    x.All PrivateKey.Plain := by
  unfold ecPrivate? at h
  split at h
  · split at h <;> cases h
    exact all_ofCurve? _ _ _
  · cases h

theorem all_of_ofPrivate? {family : Family} {d : Der} {x : Except KeyFault PrivateKey}
    (h : ofPrivate? family d = some x) : x.All PrivateKey.Plain := by
  cases family
  case rsa => exact all_of_rsaPrivate? h
  case dsa =>
    unfold ofPrivate? at h
    dsimp only at h
    split at h <;> cases h
    exact PrivateKey.all_ofDsa _ _ _ _ _
  case ec => exact all_of_ecPrivate? h
  all_goals cases h

theorem all_of_privateOf? {family : Family} {parameters : Option Der} {octets : Bytes}
    {x : Except KeyFault PrivateKey} (h : privateOf? family parameters octets = some x) :
    x.All PrivateKey.Plain := by
  unfold privateOf? at h
  cases family <;> dsimp only at h
  case rsa =>
    split at h
    · obtain ⟨d, -, h⟩ := Option.bind_eq_some_iff.mp h
      exact all_of_rsaPrivate? h
    · cases h
  case dsa =>
    split at h <;> cases h
    split
    · exact .error _
    · exact PrivateKey.all_ofDsa _ _ _ _ _
  case ec =>
    split at h
    · split at h <;> cases h
      exact all_ofCurve? _ _ _
    · cases h
  case ed25519 =>
    split at h <;> cases h
    exact PrivateKey.all_ofSeed25519 _
  case ed448 =>
    split at h <;> cases h
    exact PrivateKey.all_ofSeed448 _

theorem all_privateKey (d : Der) : (privateKey d).All PrivateKey.Plain := by
  unfold privateKey
  split
  · split
    · split
      · exact .getD (fun x => all_of_privateOf?) _
      · exact .error _
    · exact .error _
  · exact .error _

/-- The first of outcomes that are all so is so. -/
theorem all_firstValid {α : Type} {P : α → Prop} {outcomes : List (Except KeyFault α)}
    (h : ∀ x ∈ outcomes, x.All P) : (firstValid outcomes).All P := by
  induction outcomes with
  | nil => exact .error _
  | cons x rest ih =>
    obtain ⟨hx, hrest⟩ := List.forall_mem_cons.mp h
    rcases x with (- | - | -) | a
    · exact ih hrest
    · exact .error _
    · exact .error _
    · exact hx

theorem all_anyPrivateKey (d : Der) : (anyPrivateKey d).All PrivateKey.Plain := by
  refine all_firstValid (List.forall_mem_cons.mpr ⟨all_privateKey d, fun x hx => ?_⟩)
  obtain ⟨family, -, rfl⟩ := List.mem_map.mp hx
  exact .getD (fun x => all_of_ofPrivate?) _

theorem all_underLabel {α : Type} {P : α → Prop} {label : Bytes} {read : Family → Except KeyFault α}
    (h : ∀ family, (read family).All P) : (underLabel label read).All P := by
  unfold underLabel
  split
  · exact h _
  · exact .error _

theorem all_labelledPrivateKey (label : Bytes) (d : Der) :
    (labelledPrivateKey label d).All PrivateKey.Plain := by
  unfold labelledPrivateKey
  split
  · exact all_privateKey d
  · exact all_underLabel fun family => .getD (fun x => all_of_ofPrivate?) _

end Pkcs

namespace PrivateKey

/-- Only the private keys of OpenSSH have comments. -/
theorem all_ofPem_of_ne {block : Armor.Pem} (h : block.label ≠ Bytes.ofString "OPENSSH") :
    (ofPem block).All Plain := by
  unfold ofPem
  rw [if_neg h]
  split
  · exact .error _
  split
  · exact .error _
  · exact Pkcs.all_labelledPrivateKey _ _

theorem all_ofPem (block : Armor.Pem) : (ofPem block).All Sound := by
  by_cases h : block.label = Bytes.ofString "OPENSSH"
  · unfold ofPem
    rw [if_pos h]
    exact OpenSsh.all_privateKey _
  · exact (all_ofPem_of_ne h).mono fun k hk => hk.toSound

/-- A private key that comes of any octets is sound. -/
theorem all_ofBytes (b : Bytes) : (ofBytes b).All Sound := by
  unfold ofBytes
  split
  · exact (Pkcs.all_anyPrivateKey _).mono fun k hk => hk.toSound
  · exact all_ofPem _
  · exact .error _

end PrivateKey

/-! ### Public keys -/

namespace PublicKey

/-- The key has sound material. -/
def Sound (k : PublicKey) : Prop := k.material.Sound

/-- The key has sound material and no comment. -/
structure Plain (k : PublicKey) : Prop where
  material : k.Sound
  comment : k.comment = none

theorem all_ofFields {a : KeyAlgorithm} {f : KeyFields} {suits : f.suits a = true} :
    (ofFields a f suits).All Plain := by
  intro k h
  exact ⟨KeyMaterial.sound_of_material? (of_ofFields h).2, comment_of_ofFields h⟩

theorem all_ofBlob (b : Bytes) : (ofBlob b).All Plain := by
  unfold ofBlob
  split
  · exact .error _
  split
  · exact .error _
  split
  · exact .error _
  · exact all_ofFields

end PublicKey

namespace Pkcs

theorem all_ofFields (fields : Option KeyFields) : (ofFields fields).All PublicKey.Plain := by
  intro k h
  unfold ofFields at h
  split at h
  · obtain ⟨m, hm, h⟩ := Except.bind_eq_ok_iff.mp h
    cases Except.pure_eq_ok_iff.mp h
    exact ⟨KeyMaterial.sound_of_material? hm, rfl⟩
  · cases h

theorem all_publicKey (d : Der) : (publicKey d).All PublicKey.Plain := by
  unfold publicKey
  split
  · split
    · exact all_ofFields _
    · exact .error _
  · exact .error _

theorem all_anyPublicKey (d : Der) : (anyPublicKey d).All PublicKey.Plain := by
  refine all_firstValid (List.forall_mem_cons.mpr ⟨all_publicKey d, fun x hx => ?_⟩)
  obtain ⟨family, -, rfl⟩ := List.mem_map.mp hx
  exact all_ofFields _

theorem all_labelledPublicKey (label : Bytes) (d : Der) :
    (labelledPublicKey label d).All PublicKey.Plain := by
  unfold labelledPublicKey
  split
  · exact all_publicKey d
  · exact all_underLabel fun family => all_ofFields _

end Pkcs

theorem OpenSsh.all_publicKey (b : Bytes) : (publicKey b).All PublicKey.Plain := by
  unfold publicKey
  split
  · exact .error _
  · split
    · exact .error _
    · exact PublicKey.all_ofBlob _

namespace PublicKey

theorem all_ofPrivateBytes (b : Bytes) : (ofPrivateBytes b).All Plain := by
  unfold ofPrivateBytes
  split
  · split
    · exact OpenSsh.all_publicKey _
    · next hlabel =>
      exact (PrivateKey.all_ofPem_of_ne hlabel).map fun k hk => ⟨hk.material, hk.comment⟩
  · exact (Pkcs.all_anyPrivateKey _).map fun k hk => ⟨hk.material, hk.comment⟩
  · exact .error _

/-- A public key that comes of what is found in octets is sound and has the comment that is found
there. -/
theorem all_ofBytes_of_find? {b : Bytes} {content : Armor.Content}
    (h : Armor.find? "PUBLIC KEY" (some KeyAlgorithm.lineNames) b = some content) :
    (ofBytes b).All fun k => k.Sound ∧ k.comment = content.comment? := by
  have hplain {k : PublicKey} (hk : k.Plain) : k.Sound ∧ k.comment = none :=
    ⟨hk.material, hk.comment⟩
  unfold ofBytes
  rw [h]
  cases content with
  | der d => exact (Pkcs.all_anyPublicKey d).mono fun k => hplain
  | pem block =>
    dsimp only
    split
    · exact .error _
    · exact (Pkcs.all_labelledPublicKey _ _).mono fun k => hplain
  | block body comment => exact (all_ofBlob body).bind fun k hk => .ok ⟨hk.material, rfl⟩
  | line name body comment =>
    refine (all_ofBlob body).bind fun k hk => ?_
    split
    · exact .ok ⟨hk.material, rfl⟩
    · exact .error _
  | nothing => exact (all_ofPrivateBytes b).mono fun k => hplain

/-- A public key that comes of any octets is sound. -/
theorem all_ofBytes (b : Bytes) : (ofBytes b).All Sound := by
  rcases h : Armor.find? "PUBLIC KEY" (some KeyAlgorithm.lineNames) b with - | content
  · unfold ofBytes
    rw [h]
    exact .error _
  · exact (all_ofBytes_of_find? h).mono fun k hk => hk.1

/-- A key that comes of octets has the comment that is found in them. -/
theorem exists_find?_of_ofBytes {b : Bytes} {k : PublicKey} (h : ofBytes b = .ok k) :
    ∃ content, Armor.find? "PUBLIC KEY" (some KeyAlgorithm.lineNames) b = some content ∧
      k.comment = content.comment? := by
  rcases hfind : Armor.find? "PUBLIC KEY" (some KeyAlgorithm.lineNames) b with - | content
  · unfold ofBytes at h
    rw [hfind] at h
    cases h
  · exact ⟨content, rfl, (all_ofBytes_of_find? hfind k h).2⟩

/-- The comment of a key is what is left of its octets after dropping some, all line feeds among
them. -/
theorem comment_of_ofBytes {b : Bytes} {k : PublicKey} (h : ofBytes b = .ok k) :
    ∀ comment ∈ k.comment, comment.Sublist (b.filter (· ≠ 0x0A)) := by
  obtain ⟨content, hfind, hcomment⟩ := exists_find?_of_ofBytes h
  rw [hcomment]
  exact Armor.comment_sublist_of_find? hfind

/-- A sound key is read back from its wire encoding, if the lengths of its strings can be written. -/
theorem exists_ofBlob_blob {k : PublicKey} (hk : k.Sound)
    (hstrings : k.material.strings.all Wire.fits = true) :
    ∃ k', ofBlob k.blob = .ok k' ∧ k'.algorithm = k.algorithm ∧ k'.material = k.material := by
  obtain ⟨suits, hblob⟩ := ofBlob_blob hstrings
  rcases h : ofBlob k.blob with fault | k'
  · -- the fields of sound material have no fault
    rw [hblob] at h
    unfold ofFields at h
    split at h
    · next hmaterial =>
      rw [hk] at hmaterial
      cases hmaterial
    · cases h
  · exact ⟨k', rfl, eq_of_ofBlob_blob hstrings h⟩

end PublicKey

/-! ### Signatures -/

/-- The digest of SHA-256 has 32 octets. -/
theorem Sha2.length_sha256 (message : Bytes) : (sha256 message).length = 32 := by
  unfold sha256 Short.digest State.words
  simp [Bytes.length_ofNat]

/-- The padding of PKCS #1 has room for a digest of SHA-256 in a modulus of 62 octets or more, and
only there. -/
theorem Rsa.exists_sign?_iff (n d : Nat) (message : Bytes) :
    (∃ s, sign? .sha256 n d message = some s) ↔ 62 ≤ Bytes.sizeOf n := by
  have htail : (Hash.sha256.rsaHead ++ Hash.sha256.digest message).length = 51 := by
    rw [List.length_append]
    exact congrArg (19 + ·) (Sha2.length_sha256 message)
  unfold sign? padded?
  dsimp only
  rw [htail]
  by_cases hsize : Bytes.sizeOf n < 62
  · rw [if_pos hsize]
    simp [hsize]
  · rw [if_neg hsize]
    exact ⟨fun _ => Nat.not_lt.mp hsize, fun _ => ⟨_, rfl⟩⟩

namespace PrivateKey

/-- An RSA modulus, if the key has one, leaves room for the digest that is signed. -/
def HasRoom (k : PrivateKey) : Prop :=
  ∀ e n, k.publicPart.material = .rsa e n → 62 ≤ Bytes.sizeOf n

/-- A sound key of an algorithm that signs unattended signs if there is room for the digest, and only
then. -/
theorem exists_sign?_iff {k : PrivateKey} (hk : k.Sound) (hsign : k.algorithm.canSign = true)
    (oneTime : Nat) (message : Bytes) : (∃ s, k.sign? oneTime message = some s) ↔ k.HasRoom := by
  obtain ⟨⟨a, material, comment, suits⟩, secret⟩ := k
  obtain ⟨-, halgorithm, hsecret⟩ := hk
  dsimp only at halgorithm hsecret
  subst halgorithm
  -- the secret tells the kind of the material, and devices, DSA and Ed448 do not sign here
  cases secret <;> cases material
  case seed.ed25519 seed point => exact ⟨fun _ e n h => (nomatch h), fun _ => ⟨_, rfl⟩⟩
  case number.ecdsa value c point => exact ⟨fun _ e n h => (nomatch h), fun _ => ⟨_, rfl⟩⟩
  case rsa.rsa numbers e n =>
    have hroom : HasRoom ⟨⟨.rsa, .rsa e n, comment, suits⟩, .rsa numbers⟩ ↔ 62 ≤ Bytes.sizeOf n :=
      ⟨fun h => h e n rfl, fun h e' n' heq => by cases heq; exact h⟩
    refine Iff.trans ?_ hroom.symm
    rw [← Rsa.exists_sign?_iff n numbers.d message]
    unfold sign?
    dsimp only
    simp only [Option.map_eq_some_iff]
    constructor
    · rintro ⟨-, s, hs, -⟩
      exact ⟨s, hs⟩
    · rintro ⟨s, hs⟩
      exact ⟨_, s, hs, rfl⟩
  all_goals first
    | exact absurd hsecret id
    | exact absurd hsign Bool.false_ne_true

end PrivateKey

end SshAuthority
