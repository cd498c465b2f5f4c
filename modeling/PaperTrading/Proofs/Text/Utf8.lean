import PaperTrading.Text.Utf8

/-!
# Decoding what was encoded

The bytes of a text are decoded to the text.  A character is sent as up to four bytes; a decoder
between two characters that is given the bytes of one ends between two characters again, with this
one more.

* `Decoder.step_lead`, `Decoder.step_within`, `Decoder.step_last`: what a byte does that belongs where
  it stands.
* `Decoder.Took`, `took_utf8EncodeChar`: **the bytes of one character.**
* `ofUtf8_utf8Bytes`: **the bytes of a text are decoded to the text.**
-/

namespace PaperTrading.Text

namespace Decoder

variable {d : Decoder} {b : Nat}

/-- A byte between two characters begins the next one. -/
theorem step_lead (h : d.needed = 0) : d.step b = d.begin b := by
  unfold step
  rw [if_pos h]

/-- A byte inside a character, which is not its last. -/
theorem step_within (hn : 1 < d.needed) (hb : d.low ≤ b ∧ b ≤ d.high) :
    d.step b = ⟨d.chars, 64 * d.value + (b - 0x80), d.needed - 1, 0x80, 0xbf⟩ := by
  unfold step
  rw [if_neg (by omega), if_pos hb]
  dsimp only
  rw [if_neg (by omega)]

/-- The last byte of a character. -/
theorem step_last (hn : d.needed = 1) (hb : d.low ≤ b ∧ b ≤ d.high) :
    d.step b = d.emit (Char.ofNat (64 * d.value + (b - 0x80))) := by
  unfold step
  rw [if_neg (by omega), if_pos hb]
  dsimp only
  rw [if_pos hn]

/-- **One more character has been decoded,** and no other one has been begun. -/
def Took (d : Decoder) (c : Char) (d' : Decoder) : Prop := d'.needed = 0 ∧ d'.chars = c :: d.chars

theorem took_emit {x : Decoder} {c : Char} {n : Nat} (hx : x.chars = d.chars) (hn : n = c.toNat) :
    d.Took c (x.emit (Char.ofNat n)) := by
  rw [hn, Char.ofNat_toNat]
  exact ⟨rfl, by simp [emit, hx]⟩

/-- A character of one byte. -/
theorem took_one {c : Char} (hd : d.needed = 0) (hc : c.toNat ≤ 0x7f) :
    d.Took c ([c.toNat].foldl step d) := by
  rw [List.foldl_cons, List.foldl_nil, step_lead hd]
  unfold begin
  rw [if_pos (by omega)]
  exact took_emit rfl rfl

/-- A character of two bytes. -/
theorem took_two {c : Char} {v : Nat} (hd : d.needed = 0) (hv : v = c.toNat) (hlow : 0x7f < v)
    (hhigh : v ≤ 0x7ff) : d.Took c ([v / 64 + 0xc0, v % 64 + 0x80].foldl step d) := by
  have hbegin : d.begin (v / 64 + 0xc0) = ⟨d.chars, v / 64 + 0xc0 - 0xc0, 1, 0x80, 0xbf⟩ := by
    unfold begin
    rw [if_neg (by omega), if_pos (by omega)]
  rw [List.foldl_cons, step_lead hd, hbegin, List.foldl_cons, step_last rfl, List.foldl_nil]
  · exact took_emit rfl (by dsimp only; omega)
  · dsimp only; omega

/-- A character of three bytes, which is no surrogate. -/
theorem took_three {c : Char} {v : Nat} (hd : d.needed = 0) (hv : v = c.toNat) (hlow : 0x7ff < v)
    (hhigh : v ≤ 0xffff) (hvalid : v < 0xd800 ∨ 0xdfff < v) :
    d.Took c ([v / 4096 + 0xe0, v / 64 % 64 + 0x80, v % 64 + 0x80].foldl step d) := by
  have hbegin : d.begin (v / 4096 + 0xe0) = ⟨d.chars, v / 4096 + 0xe0 - 0xe0, 2,
      if v / 4096 + 0xe0 = 0xe0 then 0xa0 else 0x80,
      if v / 4096 + 0xe0 = 0xed then 0x9f else 0xbf⟩ := by
    unfold begin
    rw [if_neg (by omega), if_neg (by omega), if_pos (by omega)]
  rw [List.foldl_cons, step_lead hd, hbegin, List.foldl_cons, step_within (Nat.lt_succ_self 1),
    List.foldl_cons, step_last rfl, List.foldl_nil]
  · exact took_emit rfl (by dsimp only; omega)
  · dsimp only; omega
  · -- the bounds of the second byte keep out what fits into two bytes, and surrogates
    dsimp only; split <;> split <;> omega

/-- A character of four bytes. -/
theorem took_four {c : Char} {v : Nat} (hd : d.needed = 0) (hv : v = c.toNat) (hlow : 0xffff < v)
    (hhigh : v < 0x110000) : d.Took c
      ([v / 262144 + 0xf0, v / 4096 % 64 + 0x80, v / 64 % 64 + 0x80, v % 64 + 0x80].foldl step d) := by
  have hbegin : d.begin (v / 262144 + 0xf0) = ⟨d.chars, v / 262144 + 0xf0 - 0xf0, 3,
      if v / 262144 + 0xf0 = 0xf0 then 0x90 else 0x80,
      if v / 262144 + 0xf0 = 0xf4 then 0x8f else 0xbf⟩ := by
    unfold begin
    rw [if_neg (by omega), if_neg (by omega), if_neg (by omega), if_pos (by omega)]
  rw [List.foldl_cons, step_lead hd, hbegin, List.foldl_cons, step_within (by decide : 1 < 3),
    List.foldl_cons, step_within (Nat.lt_succ_self 1), List.foldl_cons, step_last rfl,
    List.foldl_nil]
  · exact took_emit rfl (by dsimp only; omega)
  · dsimp only; omega
  · dsimp only; omega
  · -- the bounds of the second byte keep out what fits into three bytes, and what is no character
    dsimp only; split <;> split <;> omega

/-- **The bytes of one character** are decoded to it. -/
theorem took_utf8EncodeChar (hd : d.needed = 0) (c : Char) :
    d.Took c (((String.utf8EncodeChar c).map UInt8.toNat).foldl step d) := by
  have hvalid : c.toNat < 0xd800 ∨ 0xdfff < c.toNat ∧ c.toNat < 0x110000 := c.valid
  have hv : c.val.toNat = c.toNat := rfl
  unfold String.utf8EncodeChar
  dsimp only
  rw [hv]
  by_cases h₁ : c.toNat ≤ 0x7f
  · have hbyte : c.toNat % 256 = c.toNat := by omega
    simpa [h₁, hbyte] using took_one hd h₁
  rw [if_neg h₁]
  by_cases h₂ : c.toNat ≤ 0x7ff
  · have hbytes : (c.toNat / 64 % 32 + 192) % 256 = c.toNat / 64 + 0xc0 ∧
        (c.toNat % 64 + 128) % 256 = c.toNat % 64 + 0x80 := by omega
    simpa [h₂, hbytes] using took_two hd rfl (by omega) h₂
  rw [if_neg h₂]
  by_cases h₃ : c.toNat ≤ 0xffff
  · have hbytes : (c.toNat / 4096 % 16 + 224) % 256 = c.toNat / 4096 + 0xe0 ∧
        (c.toNat / 64 % 64 + 128) % 256 = c.toNat / 64 % 64 + 0x80 ∧
        (c.toNat % 64 + 128) % 256 = c.toNat % 64 + 0x80 := by omega
    simpa [h₃, hbytes] using took_three hd rfl (by omega) h₃ (by omega)
  · have hbytes : (c.toNat / 262144 % 8 + 240) % 256 = c.toNat / 262144 + 0xf0 ∧
        (c.toNat / 4096 % 64 + 128) % 256 = c.toNat / 4096 % 64 + 0x80 ∧
        (c.toNat / 64 % 64 + 128) % 256 = c.toNat / 64 % 64 + 0x80 ∧
        (c.toNat % 64 + 128) % 256 = c.toNat % 64 + 0x80 := by omega
    simpa [h₃, hbytes] using took_four hd rfl (by omega) (by omega)

end Decoder

/-- The bytes of some characters add these to what has been decoded. -/
theorem foldl_step_utf8Bytes (cs : List Char) {d : Decoder} (hd : d.needed = 0) :
    ((utf8Bytes cs).foldl Decoder.step d).needed = 0 ∧
      ((utf8Bytes cs).foldl Decoder.step d).chars = cs.reverse ++ d.chars := by
  induction cs generalizing d with
  | nil => exact ⟨hd, rfl⟩
  | cons c cs ih =>
    obtain ⟨hneeded, hchars⟩ := Decoder.took_utf8EncodeChar hd c
    obtain ⟨hn, hcs⟩ := ih hneeded
    have hsplit : utf8Bytes (c :: cs) =
        (String.utf8EncodeChar c).map UInt8.toNat ++ utf8Bytes cs := rfl
    rw [hsplit, List.foldl_append]
    refine ⟨hn, ?_⟩
    rw [hcs, hchars]
    simp

/-- **The bytes of a text are decoded to the text.** -/
theorem ofUtf8_utf8Bytes (cs : List Char) : ofUtf8 (utf8Bytes cs) = cs := by
  obtain ⟨hneeded, hchars⟩ := foldl_step_utf8Bytes cs (d := .start) rfl
  unfold ofUtf8 Decoder.finish
  rw [if_pos hneeded, hchars]
  simp [Decoder.start]

end PaperTrading.Text
