import ServiceCatalog.Text.Utf8

/-! The bytes of a text are read as its characters, whatever the mark of a part that is no text. -/
namespace ServiceCatalog.Utf8

variable {mark : List Char} {o : Begun} {n v m low high : Nat} {rest : List UInt8}

theorem toNat_ofNat (h : n < 256) : (UInt8.ofNat n).toNat = n := by
  rw [UInt8.toNat_ofNat']
  omega

/-- The first byte of a letter of more bytes. -/
theorem decodeFrom_begun (hn : n < 256) (h : begun? n = some o) (hm : o.missing ≠ 0) :
    decodeFrom mark none (UInt8.ofNat n :: rest) = decodeFrom mark (some o) rest := by
  simp [decodeFrom, step, start, toNat_ofNat hn, h, hm]

/-- A byte in the middle of a letter. -/
theorem decodeFrom_more (hn : n < 256) (hl : low ≤ n) (hh : n ≤ high) :
    decodeFrom mark (some ⟨v, m + 2, low, high⟩) (UInt8.ofNat n :: rest) =
      decodeFrom mark (some ⟨v * 64 + (n - 0x80), m + 1, 0x80, 0xbf⟩) rest := by
  simp [decodeFrom, step, toNat_ofNat hn, hl, hh]

/-- The last byte of a letter. -/
theorem decodeFrom_last (hn : n < 256) (hl : low ≤ n) (hh : n ≤ high) :
    decodeFrom mark (some ⟨v, 1, low, high⟩) (UInt8.ofNat n :: rest) =
      Char.ofNat (v * 64 + (n - 0x80)) :: decodeFrom mark none rest := by
  simp [decodeFrom, step, toNat_ofNat hn, hl, hh]

theorem decodeFrom_encodeChar (c : Char) :
    decodeFrom mark none (String.utf8EncodeChar c ++ rest) = c :: decodeFrom mark none rest := by
  have hc : Char.ofNat c.val.toNat = c := Char.ofNat_toNat c
  have hvalid : c.val.toNat < 0xd800 ∨ 0xdfff < c.val.toNat ∧ c.val.toNat < 0x110000 := c.valid
  rw [String.utf8EncodeChar.eq_1]
  generalize c.val.toNat = n at hc hvalid
  -- One case for each length of a letter; the bounds of its second byte are what `hvalid` leaves.
  split
  · have hbegun : begun? n = some { value := n, missing := 0 } := if_pos (by omega)
    simp [decodeFrom, step, start, toNat_ofNat (n := n) (by omega), hbegun, hc]
  split
  · have hbegun : begun? (n / 64 % 32 + 192) = some ⟨n / 64, 1, 0x80, 0xbf⟩ := by
      rw [begun?, if_neg (by omega), if_neg (by omega), if_pos (by omega)]
      simp only [Option.some.injEq, Begun.mk.injEq, and_true]
      omega
    simp only [List.cons_append, List.nil_append]
    rw [decodeFrom_begun (by omega) hbegun (by simp), decodeFrom_last (by omega) (by omega) (by omega)]
    rw [show n / 64 * 64 + (n % 64 + 128 - 128) = n by omega, hc]
  split
  · have hbegun : begun? (n / 4096 % 16 + 224) =
        some ⟨n / 4096, 2, if n / 4096 = 0 then 0xa0 else 0x80,
          if n / 4096 = 13 then 0x9f else 0xbf⟩ := by
      rw [begun?, if_neg (by omega), if_neg (by omega), if_neg (by omega), if_pos (by omega)]
      simp only [Option.some.injEq, Begun.mk.injEq, true_and]
      refine ⟨by omega, ?_, ?_⟩ <;> congr 1 <;> simp only [eq_iff_iff] <;> omega
    simp only [List.cons_append, List.nil_append]
    rw [decodeFrom_begun (by omega) hbegun (by simp),
      decodeFrom_more (by omega) (by split <;> omega) (by split <;> omega),
      decodeFrom_last (by omega) (by omega) (by omega)]
    rw [show (n / 4096 * 64 + (n / 64 % 64 + 128 - 128)) * 64 + (n % 64 + 128 - 128) = n by omega, hc]
  · have hbegun : begun? (n / 262144 % 8 + 240) =
        some ⟨n / 262144, 3, if n / 262144 = 0 then 0x90 else 0x80,
          if n / 262144 = 4 then 0x8f else 0xbf⟩ := by
      rw [begun?, if_neg (by omega), if_neg (by omega), if_neg (by omega), if_neg (by omega),
        if_pos (by omega)]
      simp only [Option.some.injEq, Begun.mk.injEq, true_and]
      refine ⟨by omega, ?_, ?_⟩ <;> congr 1 <;> simp only [eq_iff_iff] <;> omega
    simp only [List.cons_append, List.nil_append]
    rw [decodeFrom_begun (by omega) hbegun (by simp),
      decodeFrom_more (by omega) (by split <;> omega) (by split <;> omega),
      decodeFrom_more (by omega) (by omega) (by omega),
      decodeFrom_last (by omega) (by omega) (by omega)]
    rw [show ((n / 262144 * 64 + (n / 4096 % 64 + 128 - 128)) * 64 + (n / 64 % 64 + 128 - 128)) * 64 +
      (n % 64 + 128 - 128) = n by omega, hc]

theorem decode_encode (cs : List Char) : decode mark (encode cs) = cs := by
  induction cs with
  | nil => rfl
  | cons c cs ih =>
    rw [decode, encode, List.flatMap_cons, decodeFrom_encodeChar]
    exact congrArg (c :: ·) ih

end ServiceCatalog.Utf8
