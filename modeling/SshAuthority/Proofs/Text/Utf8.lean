/-
SshAuthority/Proofs/Text/Utf8.lean

UTF-8 read back.

The octets of a code point take the reader from between characters back to there, with
the code point as what it emits. That needs one lemma for each kind of octet: the first
of one, two, three and four, and one that continues. A surrogate is kept out by the
range of the second octet of three.

Main result: what a text is written as is read as the text (`decode?_of_encode?`).
-/
import SshAuthority.Text.Utf8

namespace SshAuthority.Utf8

variable (surrogates : Bool) {k : Nat}

/-! ### Steps -/

/-- The number of an octet below the limit. -/
theorem toNat_octet {n : Nat} (h : n < 256) : (UInt8.ofNat n).toNat = n :=
  UInt8.toNat_ofNat_of_lt h

theorem step_lead_one (h : k < 0x80) :
    step surrogates none (UInt8.ofNat k) = .emit (CodePoint.ofByte (UInt8.ofNat k)) := by
  have hk := toNat_octet (show k < 256 by omega)
  unfold step lead
  dsimp only
  rw [if_pos]
  simp only [UInt8.lt_iff_toNat_lt, hk, UInt8.reduceToNat]
  omega

theorem step_lead_two (hlow : 2 ≤ k) (hhigh : k < 0x20) :
    step surrogates none (UInt8.ofNat (0xC0 + k)) = .hold ⟨1, k, 0x80, 0xBF⟩ := by
  have hk := toNat_octet (show 0xC0 + k < 256 by omega)
  unfold step lead
  dsimp only
  rw [if_neg, if_neg, if_pos, hk, Nat.add_sub_cancel_left]
  all_goals
    simp only [UInt8.lt_iff_toNat_lt, hk, UInt8.reduceToNat]
    omega

theorem step_lead_three (h : k < 0x10) :
    step surrogates none (UInt8.ofNat (0xE0 + k)) =
      .hold ⟨2, k, if k = 0 then 0xA0 else 0x80, if k = 13 && !surrogates then 0x9F else 0xBF⟩ := by
  have hk := toNat_octet (show 0xE0 + k < 256 by omega)
  have hzero : (UInt8.ofNat (0xE0 + k) = 0xE0) ↔ k = 0 := by
    rw [← UInt8.toNat_inj, hk]
    simp
  have hlast : (UInt8.ofNat (0xE0 + k) = 0xED) ↔ k = 13 := by
    rw [← UInt8.toNat_inj, hk]
    simp
    omega
  unfold step lead
  dsimp only
  rw [if_neg, if_neg, if_neg, if_pos, hk, Nat.add_sub_cancel_left]
  · simp only [hzero, hlast]
  all_goals
    simp only [UInt8.lt_iff_toNat_lt, hk, UInt8.reduceToNat]
    omega

theorem step_lead_four (h : k ≤ 4) :
    step surrogates none (UInt8.ofNat (0xF0 + k)) =
      .hold ⟨3, k, if k = 0 then 0x90 else 0x80, if k = 4 then 0x8F else 0xBF⟩ := by
  have hk := toNat_octet (show 0xF0 + k < 256 by omega)
  have hzero : (UInt8.ofNat (0xF0 + k) = 0xF0) ↔ k = 0 := by
    rw [← UInt8.toNat_inj, hk]
    simp
  have hlast : (UInt8.ofNat (0xF0 + k) = 0xF4) ↔ k = 4 := by
    rw [← UInt8.toNat_inj, hk]
    simp
    omega
  unfold step lead
  dsimp only
  rw [if_neg, if_neg, if_neg, if_neg, if_pos, hk, Nat.add_sub_cancel_left]
  · simp only [hzero, hlast]
  all_goals
    simp only [UInt8.lt_iff_toNat_lt, hk, UInt8.reduceToNat]
    omega

/-- An octet that continues adds its six bits, and ends the sequence if it is the last. -/
theorem step_last (v : Nat) (h : k < 0x40) :
    step surrogates (some ⟨1, v, 0x80, 0xBF⟩) (UInt8.ofNat (0x80 + k)) =
      .emit (CodePoint.ofNat (v * 64 + k)) := by
  have hk := toNat_octet (show 0x80 + k < 256 by omega)
  have hrange : (0x80 ≤ UInt8.ofNat (0x80 + k) && UInt8.ofNat (0x80 + k) ≤ 0xBF) = true := by
    simp only [UInt8.le_iff_toNat_le, hk, Bool.and_eq_true, decide_eq_true_eq, UInt8.reduceToNat]
    omega
  unfold step extend
  dsimp only
  rw [if_pos hrange, if_pos rfl, hk, Nat.add_sub_cancel_left]

theorem step_more (m v : Nat) (low high : UInt8) (h : k < 0x40) (hlow : low.toNat ≤ 0x80 + k)
    (hhigh : 0x80 + k ≤ high.toNat) :
    step surrogates (some ⟨m + 2, v, low, high⟩) (UInt8.ofNat (0x80 + k)) =
      .hold ⟨m + 1, v * 64 + k, 0x80, 0xBF⟩ := by
  have hk := toNat_octet (show 0x80 + k < 256 by omega)
  have hrange : (low ≤ UInt8.ofNat (0x80 + k) && UInt8.ofNat (0x80 + k) ≤ high) = true := by
    simp only [UInt8.le_iff_toNat_le, hk, Bool.and_eq_true, decide_eq_true_eq]
    exact ⟨hlow, hhigh⟩
  unfold step extend
  dsimp only
  rw [if_pos hrange, if_neg (by simp), hk, Nat.add_sub_cancel_left]
  rfl

/-! ### Code points -/

theorem decodeFrom_hold {state : Option Open} {b : UInt8} {s : Open} {rest : Bytes}
    (h : step surrogates state b = .hold s) :
    decodeFrom surrogates state (b :: rest) = decodeFrom surrogates (some s) rest := by
  cases state <;> rw [decodeFrom, h]

theorem decodeFrom_emit {state : Option Open} {b : UInt8} {c : CodePoint} {rest : Bytes}
    (h : step surrogates state b = .emit c) :
    decodeFrom surrogates state (b :: rest) = (decodeFrom surrogates none rest).map (c :: ·) := by
  cases state <;> rw [decodeFrom, h]

/-- The octets of a code point that is no surrogate are read as the code point. -/
theorem decodeFrom_encodePoint {c : CodePoint} (h : c.isSurrogate = false) (rest : Bytes) :
    decodeFrom surrogates none (encodePoint c ++ rest) =
      (decodeFrom surrogates none rest).map (c :: ·) := by
  have hc : c.val < 0x110000 := c.isLt
  have hs : ¬ (0xD800 ≤ c.val ∧ c.val < 0xE000) := by
    intro hs
    simp [CodePoint.isSurrogate, hs] at h
  unfold encodePoint
  dsimp only
  -- one octet, two, three or four; the octet that leads says how many
  split
  · next h₁ =>
    have hb : CodePoint.ofByte (UInt8.ofNat c.val) = c :=
      Fin.ext (toNat_octet (show c.val < 256 by omega))
    rw [List.singleton_append, decodeFrom_emit _ (step_lead_one _ h₁), hb]
  split
  · next h₁ h₂ =>
    have hv : c.val / 64 * 64 + c.val % 64 = c.val := by omega
    have hlead := step_lead_two surrogates (show 2 ≤ c.val / 64 by omega) (by omega)
    have hlast := step_last surrogates (c.val / 64) (show c.val % 64 < 0x40 by omega)
    show decodeFrom _ _ (_ :: _ :: rest) = _
    rw [decodeFrom_hold _ hlead, decodeFrom_emit _ hlast, hv, CodePoint.ofNat_val]
  split
  · next h₁ h₂ h₃ =>
    have hv : (c.val / 4096 * 64 + c.val / 64 % 64) * 64 + c.val % 64 = c.val := by omega
    have hlead := step_lead_three surrogates (show c.val / 4096 < 0x10 by omega)
    -- the second octet has bounds of its own, which keep out long forms and surrogates
    have hmore := step_more surrogates 0 (c.val / 4096) (if c.val / 4096 = 0 then 0xA0 else 0x80)
      (if c.val / 4096 = 13 && !surrogates then 0x9F else 0xBF)
      (show c.val / 64 % 64 < 0x40 by omega) (by split <;> simp; omega)
      (by split <;> simp_all <;> omega)
    have hlast := step_last surrogates (c.val / 4096 * 64 + c.val / 64 % 64)
      (show c.val % 64 < 0x40 by omega)
    show decodeFrom _ _ (_ :: _ :: _ :: rest) = _
    rw [decodeFrom_hold _ hlead, decodeFrom_hold _ hmore, decodeFrom_emit _ hlast, hv,
      CodePoint.ofNat_val]
  · next h₁ h₂ h₃ =>
    have hv : ((c.val / 262144 * 64 + c.val / 4096 % 64) * 64 + c.val / 64 % 64) * 64 + c.val % 64 =
        c.val := by omega
    have hlead := step_lead_four surrogates (show c.val / 262144 ≤ 4 by omega)
    -- here they keep out long forms and numbers beyond the last code point
    have hsecond := step_more surrogates 1 (c.val / 262144)
      (if c.val / 262144 = 0 then 0x90 else 0x80) (if c.val / 262144 = 4 then 0x8F else 0xBF)
      (show c.val / 4096 % 64 < 0x40 by omega) (by split <;> simp; omega)
      (by split <;> simp <;> omega)
    have hthird := step_more surrogates 0 (c.val / 262144 * 64 + c.val / 4096 % 64) 0x80 0xBF
      (show c.val / 64 % 64 < 0x40 by omega) (by simp) (by simp; omega)
    have hlast := step_last surrogates
      ((c.val / 262144 * 64 + c.val / 4096 % 64) * 64 + c.val / 64 % 64)
      (show c.val % 64 < 0x40 by omega)
    show decodeFrom _ _ (_ :: _ :: _ :: _ :: rest) = _
    rw [decodeFrom_hold _ hlead, decodeFrom_hold _ hsecond, decodeFrom_hold _ hthird,
      decodeFrom_emit _ hlast, hv, CodePoint.ofNat_val]

/-! ### Texts -/

/-- A text without surrogates is read from its octets. -/
theorem decodeFrom_flatMap {t : Text} (h : ∀ c ∈ t, c.isSurrogate = false) :
    decodeFrom surrogates none (t.flatMap encodePoint) = some t := by
  induction t with
  | nil => rfl
  | cons c t ih =>
    rw [List.flatMap_cons, decodeFrom_encodePoint _ (h c List.mem_cons_self),
      ih fun d hd => h d (List.mem_cons_of_mem c hd), Option.map_some]

/-- What a text is written as is read as the text. -/
theorem decode?_of_encode? {t : Text} {b : Bytes} (h : encode? t = some b) : decode? b = some t := by
  unfold encode? at h
  split at h
  · cases h
  · next hany =>
    cases h
    refine decodeFrom_flatMap _ fun c hc => ?_
    exact Bool.eq_false_iff.mpr fun hs => hany (List.any_eq_true.mpr ⟨c, hc, hs⟩)

end SshAuthority.Utf8
