import SymbolRecovery.Text.Utf8

/-!
UTF-8 text against its octets. Main statements: the octets of a text are read back as that text, and
none of them is zero where no character of it is.
-/
namespace SymbolRecovery.Text.Utf8

def encode (text : String) : List UInt8 := text.toUTF8.data.toList

theorem encode_eq (text : String) : encode text = text.toList.flatMap String.utf8EncodeChar := by
  have listed : text.toByteArray = text.toList.utf8Encode := by
    rw [← String.toByteArray_ofList, String.ofList_toList]
  rw [encode, String.toUTF8, listed, List.utf8Encode, List.data_toByteArray]

variable {p : Pending} {octet : Nat} {rest : List UInt8}

theorem toNat_ofNat {n : Nat} (fits : n < 256) : (UInt8.ofNat n).toNat = n :=
  Nat.mod_eq_of_lt fits

theorem decodeFrom_last (low : p.low ≤ octet) (high : octet ≤ p.high) (fits : octet < 256)
    (last : p.missing = 1) :
    decodeFrom (some p) (UInt8.ofNat octet :: rest) =
      Char.ofNat (p.bits * 64 + (octet - 0x80)) :: decodeFrom none rest := by
  simp [decodeFrom, step, toNat_ofNat fits, low, high, last]

theorem decodeFrom_more (low : p.low ≤ octet) (high : octet ≤ p.high) (fits : octet < 256)
    (more : 1 < p.missing) :
    decodeFrom (some p) (UInt8.ofNat octet :: rest) = decodeFrom
      (some { bits := p.bits * 64 + (octet - 0x80), missing := p.missing - 1 }) rest := by
  have notLast : ¬ p.missing ≤ 1 := Nat.not_le.2 more
  simp [decodeFrom, step, toNat_ofNat fits, low, high, notLast]

theorem decodeFrom_lead (octet : Nat) (fits : octet < 256) :
    decodeFrom none (UInt8.ofNat octet :: rest) =
      (lead octet).1 ++ decodeFrom (lead octet).2 rest := by
  rw [decodeFrom, step, toNat_ofNat fits]

theorem lead_of_two {high : Nat} (least : 2 ≤ high) (most : high < 32) :
    lead (high + 192) = ([], some { bits := high, missing := 1 }) := by
  have bits : high + 192 - 0xC0 = high := Nat.add_sub_cancel high 192
  simp only [lead, bits]
  rw [if_neg (by omega), if_neg (by omega), if_pos (by omega)]

theorem lead_of_three {high next : Nat} (most : high < 16) (fits : next < 64)
    (least : high = 0 → 32 ≤ next) (scalar : high = 13 → next < 32) :
    ∃ p, lead (high + 224) = ([], some p) ∧ p.bits = high ∧ p.missing = 2 ∧
      p.low ≤ next + 128 ∧ next + 128 ≤ p.high := by
  unfold lead
  rw [if_neg (by omega), if_neg (by omega), if_neg (by omega)]
  by_cases first : high = 0
  · rw [if_pos (by omega)]
    exact ⟨_, rfl, first.symm, rfl, by have := least first; simp; omega, by simp; omega⟩
  · rw [if_neg (by omega)]
    by_cases last : high = 13
    · rw [if_pos (by omega)]
      exact ⟨_, rfl, last.symm, rfl, by simp, by have := scalar last; simp; omega⟩
    · rw [if_neg (by omega), if_pos (by omega)]
      exact ⟨_, rfl, by simp, rfl, by simp, by simp; omega⟩

theorem lead_of_four {high next : Nat} (most : high < 5) (fits : next < 64)
    (least : high = 0 → 16 ≤ next) (scalar : high = 4 → next < 16) :
    ∃ p, lead (high + 240) = ([], some p) ∧ p.bits = high ∧ p.missing = 3 ∧
      p.low ≤ next + 128 ∧ next + 128 ≤ p.high := by
  unfold lead
  rw [if_neg (by omega), if_neg (by omega), if_neg (by omega), if_neg (by omega),
    if_neg (by omega), if_neg (by omega)]
  by_cases first : high = 0
  · rw [if_pos (by omega)]
    exact ⟨_, rfl, first.symm, rfl, by have := least first; simp; omega, by simp; omega⟩
  · rw [if_neg (by omega)]
    by_cases last : high = 4
    · rw [if_neg (by omega), if_pos (by omega)]
      exact ⟨_, rfl, last.symm, rfl, by simp, by have := scalar last; simp; omega⟩
    · rw [if_pos (by omega)]
      exact ⟨_, rfl, by simp, rfl, by simp, by simp; omega⟩

theorem decodeFrom_encodeChar (c : Char) (rest : List UInt8) :
    decodeFrom none (String.utf8EncodeChar c ++ rest) = c :: decodeFrom none rest := by
  have scalar : c.val.toNat < 0xD800 ∨ 0xDFFF < c.val.toNat ∧ c.val.toNat < 0x110000 := c.valid
  have same : Char.ofNat c.val.toNat = c := Char.ofNat_toNat c
  unfold String.utf8EncodeChar
  generalize c.val.toNat = v at scalar same
  simp only
  split
  · next one =>
    have short : v < 0x80 := by omega
    simp only [List.cons_append, List.nil_append]
    rw [decodeFrom_lead _ (by omega)]
    simp [lead, short, same]
  · split
    · next many two =>
      have bits : v / 64 * 64 + (v % 64 + 128 - 0x80) = v := by omega
      simp only [List.cons_append, List.nil_append]
      rw [decodeFrom_lead _ (by omega), Nat.mod_eq_of_lt (by omega),
        lead_of_two (by omega) (by omega), List.nil_append,
        decodeFrom_last (by simp) (by simp; omega) (by omega) rfl, bits, same]
    · split
      · next three =>
        obtain ⟨p, leads, bits, missing, low, high⟩ :=
          @lead_of_three (v / 4096) (v / 64 % 64) (by omega) (by omega) (by omega) (by omega)
        have whole : ((v / 4096 * 64 + (v / 64 % 64 + 128 - 0x80)) * 64 +
            (v % 64 + 128 - 0x80)) = v := by omega
        simp only [List.cons_append, List.nil_append]
        rw [decodeFrom_lead _ (by omega), Nat.mod_eq_of_lt (by omega), leads, List.nil_append,
          decodeFrom_more low high (by omega) (by omega),
          decodeFrom_last (by simp) (by simp; omega) (by omega) (by simp [missing]), bits, whole,
          same]
      · next four =>
        obtain ⟨p, leads, bits, missing, low, high⟩ :=
          @lead_of_four (v / 262144) (v / 4096 % 64) (by omega) (by omega) (by omega) (by omega)
        have whole : (((v / 262144 * 64 + (v / 4096 % 64 + 128 - 0x80)) * 64 +
            (v / 64 % 64 + 128 - 0x80)) * 64 + (v % 64 + 128 - 0x80)) = v := by omega
        simp only [List.cons_append, List.nil_append]
        rw [decodeFrom_lead _ (by omega), Nat.mod_eq_of_lt (by omega), leads, List.nil_append,
          decodeFrom_more low high (by omega) (by omega),
          decodeFrom_more (by simp) (by simp; omega) (by omega) (by simp [missing]),
          decodeFrom_last (by simp) (by simp; omega) (by omega) (by simp [missing]), bits, whole,
          same]

theorem decode_encode (text : String) : decode (encode text) = text := by
  have read : ∀ l : List Char, decodeFrom none (l.flatMap String.utf8EncodeChar) = l := by
    intro l
    induction l with
    | nil => rfl
    | cons c later ih => rw [List.flatMap_cons, decodeFrom_encodeChar, ih]
  rw [decode, encode_eq, read, String.ofList_toList]

theorem zero_eq_ofNat {n : Nat} (zero : 0 = UInt8.ofNat n) (fits : n < 256) : n = 0 := by
  have numbers := congrArg UInt8.toNat zero
  rw [toNat_ofNat fits] at numbers
  exact numbers.symm

theorem zero_mem_encodeChar {c : Char} (member : 0 ∈ String.utf8EncodeChar c) : c = '\x00' := by
  have same : Char.ofNat c.val.toNat = c := Char.ofNat_toNat c
  unfold String.utf8EncodeChar at member
  generalize c.val.toNat = v at member same
  have marked : ∀ n mark : Nat, 128 ≤ mark → n + mark < 256 → 0 ≠ UInt8.ofNat (n + mark) := by
    intro n mark high fits zero
    have none := zero_eq_ofNat zero fits
    omega
  by_cases one : v ≤ 127
  · simp only [one, ↓reduceIte, List.mem_singleton] at member
    rw [← same, zero_eq_ofNat member (by omega)]
  · exfalso
    simp only [one, ↓reduceIte] at member
    split at member
    · simp only [List.mem_cons, List.not_mem_nil, or_false] at member
      rcases member with lead | last
      · exact marked _ 192 (by omega) (by omega) lead
      · exact marked _ 128 (by omega) (by omega) last
    · split at member
      · simp only [List.mem_cons, List.not_mem_nil, or_false] at member
        rcases member with lead | next | last
        · exact marked _ 224 (by omega) (by omega) lead
        · exact marked _ 128 (by omega) (by omega) next
        · exact marked _ 128 (by omega) (by omega) last
      · simp only [List.mem_cons, List.not_mem_nil, or_false] at member
        rcases member with lead | next | later | last
        · exact marked _ 240 (by omega) (by omega) lead
        · exact marked _ 128 (by omega) (by omega) next
        · exact marked _ 128 (by omega) (by omega) later
        · exact marked _ 128 (by omega) (by omega) last

theorem zero_notMem_encode {text : String} (without : '\x00' ∉ text.toList) : 0 ∉ encode text := by
  rw [encode_eq]
  intro member
  obtain ⟨c, listed, zero⟩ := List.mem_flatMap.1 member
  exact without (zero_mem_encodeChar zero ▸ listed)

end SymbolRecovery.Text.Utf8
