import LoxLexer.Text.Utf8

/-!
# Well-formed UTF-8

Bytes are well-formed if they are the bytes of a text.  Reading works from the other end: a lead
byte tells how many bytes must follow and between which bounds.  Both agree, so that every text has
one sequence of bytes, and every sequence of bytes at most one text.

* `Utf8.Within`, `Utf8.continued` — bytes that may follow a lead byte, and what they add to it.
* `Utf8.Leads` — what a lead byte stands for.
* `Utf8.encodeCodePoint_of_within`, `Utf8.exists_leads` — the bytes of a character are a lead byte
  and bytes that may follow it.
* `Utf8.character_eq_ok_iff` — a character is read exactly where its bytes stand.
* `Utf8.decode_eq_ok_iff` — bytes are read as a text exactly if they are its bytes.
* `Utf8.encode_injective` — no two texts have the same bytes.
-/

namespace LoxLexer
namespace Utf8

/-! ### Bytes behind a lead byte -/

/-- The bytes lie in the ranges, one in each. -/
def Within : Ranges → Bytes → Prop
  | [], [] => True
  | (low, high) :: ranges, byte :: rest =>
    (low ≤ byte.toNat ∧ byte.toNat ≤ high) ∧ Within ranges rest
  | _, _ => False

/-- The code point that goes on from `value` with six bits of each byte. -/
def continued (value : Nat) (bytes : Bytes) : Nat :=
  bytes.foldl (fun value byte => value * 0x40 + byte.toNat % 0x40) value

theorem Within.length_eq {ranges : Ranges} {bytes : Bytes} (h : Within ranges bytes) :
    ranges.length = bytes.length := by
  fun_induction Within ranges bytes with
  | case1 => rfl
  | case2 low high ranges byte rest ih => rw [List.length_cons, List.length_cons, ih h.2]
  | case3 => exact h.elim

theorem readTail_eq_ok_iff {value width n : Nat} {ranges : Ranges} {bytes : Bytes} :
    readTail value width ranges bytes = .ok n ↔
      ∃ tail rest, bytes = tail ++ rest ∧ Within ranges tail ∧ n = continued value tail := by
  fun_induction readTail value width ranges bytes with
  | case1 value width bytes =>
      constructor
      · intro h
        exact ⟨[], bytes, rfl, trivial, (Except.ok.inj h).symm⟩
      · rintro ⟨tail, rest, -, hwithin, rfl⟩
        cases tail with
        | nil => rfl
        | cons byte tail => exact hwithin.elim
  | case2 value width range ranges =>
      refine ⟨nofun, ?_⟩
      rintro ⟨tail, rest, htail, hwithin, -⟩
      obtain ⟨rfl, -⟩ := List.append_eq_nil_iff.mp htail.symm
      exact hwithin.elim
  | case3 value width low high ranges byte rest hrange ih =>
      rw [ih]
      constructor
      · rintro ⟨tail, more, rfl, hwithin, hn⟩
        exact ⟨byte :: tail, more, rfl, ⟨hrange, hwithin⟩, hn⟩
      · rintro ⟨tail, more, htail, hwithin, hn⟩
        cases tail with
        | nil => exact hwithin.elim
        | cons first tail =>
            obtain ⟨rfl, rfl⟩ := List.cons.inj htail
            exact ⟨tail, more, rfl, hwithin.2, hn⟩
  | case4 value width low high ranges byte rest hrange =>
      refine ⟨nofun, ?_⟩
      rintro ⟨tail, more, htail, hwithin, -⟩
      cases tail with
      | nil => exact hwithin.elim
      | cons first tail =>
          obtain ⟨rfl, -⟩ := List.cons.inj htail
          exact absurd hwithin.1 hrange

/-! ### Lead bytes -/

/-- `Leads lead value ranges`: the lead byte contributes `value`, and one byte must follow in each
of the ranges.  The bounds of the second byte leave out what a shorter form could have written, the
surrogates, and what lies beyond the last code point. -/
inductive Leads (lead : Nat) : Nat → Ranges → Prop
  | one (h : lead < 0x80) : Leads lead lead []
  | two (hlead : 0xc2 ≤ lead ∧ lead < 0xe0) : Leads lead (lead - 0xc0) [anyTail]
  | three {low high : Nat} (hlead : 0xe0 ≤ lead ∧ lead < 0xf0)
      (hlow : lead = 0xe0 ∧ low = 0xa0 ∨ lead ≠ 0xe0 ∧ low = 0x80)
      (hhigh : lead = 0xed ∧ high = 0x9f ∨ lead ≠ 0xed ∧ high = 0xbf) :
      Leads lead (lead - 0xe0) [(low, high), anyTail]
  | four {low high : Nat} (hlead : 0xf0 ≤ lead ∧ lead < 0xf5)
      (hlow : lead = 0xf0 ∧ low = 0x90 ∨ lead ≠ 0xf0 ∧ low = 0x80)
      (hhigh : lead = 0xf4 ∧ high = 0x8f ∨ lead ≠ 0xf4 ∧ high = 0xbf) :
      Leads lead (lead - 0xf0) [(low, high), anyTail, anyTail]

theorem leads_of_tails? {lead value : Nat} {ranges : Ranges}
    (h : tails? lead = some (value, ranges)) : Leads lead value ranges := by
  have hthree (low high : Nat) := @Leads.three lead low high
  have hfour (low high : Nat) := @Leads.four lead low high
  unfold tails? at h
  split at h
  · obtain ⟨rfl, rfl⟩ := Prod.mk.inj (Option.some.inj h)
    exact .one ‹_›
  split at h
  · contradiction
  split at h
  · obtain ⟨rfl, rfl⟩ := Prod.mk.inj (Option.some.inj h)
    exact .two (by omega)
  -- the rows for three and for four bytes differ in the bounds of the second byte only
  split at h
  · obtain ⟨rfl, rfl⟩ := Prod.mk.inj (Option.some.inj h)
    subst lead
    exact hthree 0xa0 0xbf (by omega) (by omega) (by omega)
  split at h
  · obtain ⟨rfl, rfl⟩ := Prod.mk.inj (Option.some.inj h)
    subst lead
    exact hthree 0x80 0x9f (by omega) (by omega) (by omega)
  split at h
  · obtain ⟨rfl, rfl⟩ := Prod.mk.inj (Option.some.inj h)
    exact hthree 0x80 0xbf (by omega) (by omega) (by omega)
  split at h
  · obtain ⟨rfl, rfl⟩ := Prod.mk.inj (Option.some.inj h)
    subst lead
    exact hfour 0x90 0xbf (by omega) (by omega) (by omega)
  split at h
  · obtain ⟨rfl, rfl⟩ := Prod.mk.inj (Option.some.inj h)
    exact hfour 0x80 0xbf (by omega) (by omega) (by omega)
  split at h
  · obtain ⟨rfl, rfl⟩ := Prod.mk.inj (Option.some.inj h)
    subst lead
    exact hfour 0x80 0x8f (by omega) (by omega) (by omega)
  · contradiction

theorem Leads.tails?_eq {lead value : Nat} {ranges : Ranges} (h : Leads lead value ranges) :
    tails? lead = some (value, ranges) := by
  cases h with
  | one h => rw [tails?, if_pos h]
  | two hlead => rw [tails?, if_neg (by omega), if_neg (by omega), if_pos hlead.2]
  | @three low high hlead hlow hhigh =>
      rw [tails?, if_neg (by omega), if_neg (by omega), if_neg (by omega)]
      by_cases hfirst : lead = 0xe0
      · obtain ⟨rfl, rfl⟩ : low = 0xa0 ∧ high = 0xbf := by omega
        rw [if_pos hfirst, hfirst]
      by_cases hlast : lead = 0xed
      · obtain ⟨rfl, rfl⟩ : low = 0x80 ∧ high = 0x9f := by omega
        rw [if_neg hfirst, if_pos hlast, hlast]
      obtain ⟨rfl, rfl⟩ : low = 0x80 ∧ high = 0xbf := by omega
      rw [if_neg hfirst, if_neg hlast, if_pos hlead.2]
      rfl
  | @four low high hlead hlow hhigh =>
      rw [tails?, if_neg (by omega), if_neg (by omega), if_neg (by omega), if_neg (by omega),
        if_neg (by omega), if_neg (by omega)]
      by_cases hfirst : lead = 0xf0
      · obtain ⟨rfl, rfl⟩ : low = 0x90 ∧ high = 0xbf := by omega
        rw [if_pos hfirst, hfirst]
      by_cases hlast : lead = 0xf4
      · obtain ⟨rfl, rfl⟩ : low = 0x80 ∧ high = 0x8f := by omega
        rw [if_neg hfirst, if_neg (by omega), if_pos hlast, hlast]
      obtain ⟨rfl, rfl⟩ : low = 0x80 ∧ high = 0xbf := by omega
      rw [if_neg hfirst, if_pos (by omega)]
      rfl

/-! ### The bytes of a character -/

theorem tailByte_eq {n : Nat} (byte : UInt8) (h : byte.toNat = 0x80 + n % 0x40) :
    tailByte n = byte := by
  rw [tailByte, ← h, UInt8.ofNat_toNat]

theorem ofNat_eq {n : Nat} (byte : UInt8) (h : byte.toNat = n) : UInt8.ofNat n = byte := by
  rw [← h, UInt8.ofNat_toNat]

theorem toNat_tailByte (n : Nat) : (tailByte n).toNat = 0x80 + n % 0x40 := by
  rw [tailByte, UInt8.toNat_ofNat']
  omega

theorem toNat_ofNat {n : Nat} (h : n < 0x100) : (UInt8.ofNat n).toNat = n := by
  rw [UInt8.toNat_ofNat']
  omega

/-- A lead byte and bytes that may follow it are the bytes of a character. -/
theorem encodeCodePoint_of_within {value : Nat} {ranges : Ranges} {lead : UInt8} {tail : Bytes}
    (hlead : Leads lead.toNat value ranges) (hwithin : Within ranges tail) :
    (continued value tail).isValidChar ∧
      encodeCodePoint (continued value tail) = lead :: tail := by
  generalize hn : lead.toNat = n at hlead
  cases hlead with
  | one h =>
      match tail, hwithin with
      | [], _ =>
          refine ⟨.inl (Nat.lt_of_lt_of_le h (by decide)), ?_⟩
          show encodeCodePoint value = [lead]
          rw [encodeCodePoint, if_pos h, ofNat_eq lead hn]
  | two hlead =>
      match tail, hwithin with
      | [b], ⟨⟨hb, hb'⟩, _⟩ =>
          have hpoint : continued (n - 0xc0) [b] = (n - 0xc0) * 0x40 + b.toNat % 0x40 := rfl
          generalize continued (n - 0xc0) [b] = point at hpoint
          refine ⟨.inl (by omega), ?_⟩
          rw [encodeCodePoint, if_neg (by omega), if_pos (by omega),
            ofNat_eq lead (by omega), tailByte_eq b (by omega)]
  | three hlead hlow hhigh =>
      match tail, hwithin with
      | [b, d], ⟨⟨hb, hb'⟩, ⟨hd, hd'⟩, _⟩ =>
          have hpoint : continued (n - 0xe0) [b, d] =
              ((n - 0xe0) * 0x40 + b.toNat % 0x40) * 0x40 + d.toNat % 0x40 := rfl
          generalize continued (n - 0xe0) [b, d] = point at hpoint
          have hvalid : point < 0xd800 ∨ 0xdfff < point ∧ point < 0x110000 := by omega
          refine ⟨hvalid, ?_⟩
          rw [encodeCodePoint, if_neg (by omega), if_neg (by omega), if_pos (by omega),
            ofNat_eq lead (by omega), tailByte_eq b (by omega),
            tailByte_eq d (by omega)]
  | four hlead hlow hhigh =>
      match tail, hwithin with
      | [b, d, e], ⟨⟨hb, hb'⟩, ⟨hd, hd'⟩, ⟨he, he'⟩, _⟩ =>
          have hpoint : continued (n - 0xf0) [b, d, e] =
              (((n - 0xf0) * 0x40 + b.toNat % 0x40) * 0x40 + d.toNat % 0x40) * 0x40 +
                e.toNat % 0x40 := rfl
          generalize continued (n - 0xf0) [b, d, e] = point at hpoint
          have hvalid : point < 0xd800 ∨ 0xdfff < point ∧ point < 0x110000 := by omega
          refine ⟨hvalid, ?_⟩
          rw [encodeCodePoint, if_neg (by omega), if_neg (by omega), if_neg (by omega),
            ofNat_eq lead (by omega), tailByte_eq b (by omega),
            tailByte_eq d (by omega), tailByte_eq e (by omega)]

/-- The bytes of a character are a lead byte and bytes that may follow it. -/
theorem exists_leads {n : Nat} (hn : n.isValidChar) :
    ∃ lead tail value ranges, encodeCodePoint n = lead :: tail ∧
      Leads lead.toNat value ranges ∧ Within ranges tail ∧ continued value tail = n := by
  have hvalid : n < 0xd800 ∨ 0xdfff < n ∧ n < 0x110000 := hn
  by_cases hone : n < 0x80
  · have hlead : (UInt8.ofNat n).toNat = n := toNat_ofNat (by omega)
    refine ⟨UInt8.ofNat n, [], n, [], by rw [encodeCodePoint, if_pos hone], ?_, trivial, rfl⟩
    rw [hlead]
    exact .one hone
  by_cases htwo : n < 0x800
  · have hlead := toNat_ofNat (n := 0xc0 + n / 0x40) (by omega)
    have hb := toNat_tailByte n
    refine ⟨UInt8.ofNat (0xc0 + n / 0x40), [tailByte n], _, _, ?_, .two (by omega), ?_, ?_⟩
    · rw [encodeCodePoint, if_neg hone, if_pos htwo]
    · exact ⟨⟨by omega, by omega⟩, trivial⟩
    · simp only [continued, List.foldl_cons, List.foldl_nil]
      omega
  by_cases hthree : n < 0x10000
  · have hlead := toNat_ofNat (n := 0xe0 + n / 0x1000) (by omega)
    have hb := toNat_tailByte (n / 0x40)
    have hd := toNat_tailByte n
    refine ⟨UInt8.ofNat (0xe0 + n / 0x1000), [tailByte (n / 0x40), tailByte n], _,
      [(if n < 0x1000 then 0xa0 else 0x80, if 0xd000 ≤ n ∧ n < 0xe000 then 0x9f else 0xbf),
        anyTail],
      ?_, .three (by omega) (by split <;> omega) (by split <;> omega), ?_, ?_⟩
    · rw [encodeCodePoint, if_neg hone, if_neg htwo, if_pos hthree]
    · exact ⟨⟨by split <;> omega, by split <;> omega⟩, ⟨by omega, by omega⟩, trivial⟩
    · simp only [continued, List.foldl_cons, List.foldl_nil]
      omega
  · have hlead := toNat_ofNat (n := 0xf0 + n / 0x40000) (by omega)
    have hb := toNat_tailByte (n / 0x1000)
    have hd := toNat_tailByte (n / 0x40)
    have he := toNat_tailByte n
    refine ⟨UInt8.ofNat (0xf0 + n / 0x40000),
      [tailByte (n / 0x1000), tailByte (n / 0x40), tailByte n], _,
      [(if n < 0x40000 then 0x90 else 0x80, if 0x100000 ≤ n then 0x8f else 0xbf), anyTail, anyTail],
      ?_, .four (by omega) (by split <;> omega) (by split <;> omega), ?_, ?_⟩
    · rw [encodeCodePoint, if_neg hone, if_neg htwo, if_neg hthree]
    · exact ⟨⟨by split <;> omega, by split <;> omega⟩, ⟨by omega, by omega⟩, ⟨by omega, by omega⟩,
        trivial⟩
    · simp only [continued, List.foldl_cons, List.foldl_nil]
      omega

theorem toNat_ofNat_of_isValidChar {n : Nat} (h : n.isValidChar) : (Char.ofNat n).toNat = n := by
  rw [Char.ofNat, dif_pos h]
  rfl

/-- A character is read exactly where its bytes stand. -/
theorem character_eq_ok_iff {lead : UInt8} {bytes : Bytes} {c : Char} {taken : Nat} :
    character lead bytes = .ok (c, taken) ↔
      ∃ tail rest, bytes = tail ++ rest ∧ taken = tail.length ∧
        encodeCodePoint c.toNat = lead :: tail := by
  constructor
  · intro h
    unfold character at h
    split at h
    · contradiction
    · rename_i value ranges htails
      cases hread : readTail value 1 ranges bytes with
      | error cause =>
          rw [hread] at h
          contradiction
      | ok n =>
          rw [hread] at h
          obtain ⟨rfl, rfl⟩ := Prod.mk.inj (Except.ok.inj h)
          obtain ⟨tail, rest, rfl, hwithin, rfl⟩ := readTail_eq_ok_iff.mp hread
          obtain ⟨hvalid, hencode⟩ := encodeCodePoint_of_within (leads_of_tails? htails) hwithin
          refine ⟨tail, rest, rfl, hwithin.length_eq, ?_⟩
          rw [toNat_ofNat_of_isValidChar hvalid, hencode]
  · rintro ⟨tail, rest, rfl, rfl, hencode⟩
    obtain ⟨lead', tail', value, ranges, hencode', hleads, hwithin, hpoint⟩ :=
      exists_leads (n := c.toNat) c.valid
    obtain ⟨rfl, rfl⟩ := List.cons.inj (hencode.symm.trans hencode')
    have hread : readTail value 1 ranges (tail ++ rest) = .ok c.toNat :=
      readTail_eq_ok_iff.mpr ⟨tail, rest, rfl, hwithin, hpoint.symm⟩
    rw [character, hleads.tails?_eq]
    simp only [hread, Except.map, Char.ofNat_toNat, hwithin.length_eq]

/-! ### The bytes of a text -/

theorem encode_cons (c : Char) (text : Text) :
    encode (c :: text) = encodeCodePoint c.toNat ++ encode text := rfl

/-- The bytes of a text start with those of its first character. -/
theorem eq_encode_cons_iff {lead : UInt8} {rest : Bytes} {text : Text} :
    lead :: rest = encode text ↔
      ∃ c more tail, text = c :: more ∧ encodeCodePoint c.toNat = lead :: tail ∧
        rest = tail ++ encode more := by
  constructor
  · intro h
    cases text with
    | nil => contradiction
    | cons c more =>
        obtain ⟨first, tail, -, -, hfirst, -⟩ := exists_leads (n := c.toNat) c.valid
        rw [encode_cons, hfirst] at h
        obtain ⟨rfl, rfl⟩ := List.cons.inj h
        exact ⟨c, more, tail, rfl, hfirst, rfl⟩
  · rintro ⟨c, more, tail, rfl, hfirst, rfl⟩
    rw [encode_cons, hfirst, List.cons_append]

theorem decodeFrom_eq_ok_iff {position : Nat} {bytes : Bytes} {text : Text} :
    decodeFrom position bytes = .ok text ↔ bytes = encode text := by
  -- character by character, as the bytes are read
  fun_induction decodeFrom position bytes generalizing text with
  | case1 position =>
      cases text with
      | nil => simp [encode]
      | cons c more =>
          obtain ⟨first, tail, -, -, hfirst, -⟩ := exists_leads (n := c.toNat) c.valid
          rw [encode_cons, hfirst]
          simp
  | case2 position lead rest width flaw hcharacter =>
      refine ⟨nofun, fun h => ?_⟩
      obtain ⟨c, more, tail, -, hfirst, hrest⟩ := eq_encode_cons_iff.mp h
      have hread := character_eq_ok_iff.mpr ⟨tail, _, hrest, rfl, hfirst⟩
      rw [hcharacter] at hread
      contradiction
  | case3 position lead rest c taken hcharacter error hfound ih =>
      refine ⟨nofun, fun h => ?_⟩
      obtain ⟨c', more, tail, -, hfirst, hrest⟩ := eq_encode_cons_iff.mp h
      have hread := character_eq_ok_iff.mpr ⟨tail, _, hrest, rfl, hfirst⟩
      rw [hcharacter] at hread
      obtain ⟨rfl, rfl⟩ := Prod.mk.inj (Except.ok.inj hread)
      have hmore := ih.mpr (show rest.drop tail.length = encode more by rw [hrest, List.drop_left])
      rw [hfound] at hmore
      contradiction
  | case4 position lead rest c taken hcharacter found hfound ih =>
      obtain ⟨tail, more, hrest, rfl, hfirst⟩ := character_eq_ok_iff.mp hcharacter
      have hmore : more = encode found := by
        have hdrop := ih.mp hfound
        rwa [hrest, List.drop_left] at hdrop
      rw [eq_encode_cons_iff]
      constructor
      · intro h
        exact ⟨c, found, tail, (Except.ok.inj h).symm, hfirst, hmore ▸ hrest⟩
      · rintro ⟨c', more', tail', rfl, hfirst', hrest'⟩
        have hread := character_eq_ok_iff.mpr ⟨tail', _, hrest', rfl, hfirst'⟩
        rw [hcharacter] at hread
        obtain ⟨rfl, hlength⟩ := Prod.mk.inj (Except.ok.inj hread)
        have hmore' := ih.mpr
          (show rest.drop tail.length = encode more' by rw [hrest', hlength, List.drop_left])
        rw [hfound] at hmore'
        rw [Except.ok.inj hmore']

/-- Bytes are read as a text exactly if they are its bytes. -/
theorem decode_eq_ok_iff {bytes : Bytes} {text : Text} :
    decode bytes = .ok text ↔ bytes = encode text := decodeFrom_eq_ok_iff

theorem decode_encode (text : Text) : decode (encode text) = .ok text := decode_eq_ok_iff.mpr rfl

theorem encode_injective {text text' : Text} (h : encode text = encode text') : text = text' :=
  Except.ok.inj ((decode_encode text).symm.trans (decode_eq_ok_iff.mpr h))

end Utf8
end LoxLexer
