import EndpointTrace.Text.Utf8
import Mathlib.Tactic.Common

/-!
# Encoding and decoding

Decoding the UTF-8 form of a text gives the text back, and a line feed in the UTF-8 form
is a line feed of the text.  So it makes no difference whether a text is cut into lines
before or after it is decoded.
-/

namespace EndpointTrace
namespace Text
namespace Utf8

theorem encode_cons (c : Char) (rest : List Char) :
    encode (c :: rest) = String.utf8EncodeChar c ++ encode rest := rfl

/-!
## Steps of the scan
-/

theorem begin_ofNat {n : Nat} (hbyte : n < 256) :
    begin (.ofNat n) =
      if n < 0x80 then ([some (Char.ofNat n)], .between)
      else if 0xC2 ≤ n ∧ n ≤ 0xDF then ([], .within 0x80 0xBF 0 (n - 0xC0))
      else if n = 0xE0 then ([], .within 0xA0 0xBF 1 0)
      else if n = 0xED then ([], .within 0x80 0x9F 1 0xD)
      else if 0xE1 ≤ n ∧ n ≤ 0xEF then ([], .within 0x80 0xBF 1 (n - 0xE0))
      else if n = 0xF0 then ([], .within 0x90 0xBF 2 0)
      else if 0xF1 ≤ n ∧ n ≤ 0xF3 then ([], .within 0x80 0xBF 2 (n - 0xF0))
      else if n = 0xF4 then ([], .within 0x80 0x8F 2 4)
      else ([none], .between) := by
  have htoNat : (UInt8.ofNat n).toNat = n := UInt8.toNat_ofNat_of_lt' hbyte
  simp only [begin, UInt8.lt_iff_toNat_lt, UInt8.le_iff_toNat_le, ← UInt8.toNat_inj, htoNat]
  rfl

theorem pieces_begin {n : Nat} {next : State} (hbegin : begin (.ofNat n) = ([], next))
    (rest : List UInt8) : pieces .between (.ofNat n :: rest) = pieces next rest := by
  rw [pieces]
  simp only [step, hbegin, List.nil_append]

/-- A byte after the first one, by the six bits that it carries. -/
theorem step_within {low high : UInt8} {more value bits : Nat} (hbits : bits < 64)
    (hlow : low.toNat ≤ bits + 128) (hhigh : bits + 128 ≤ high.toNat) :
    step (.within low high more value) (.ofNat (bits + 128)) =
      match more with
      | 0 => ([some (Char.ofNat (value * 64 + bits))], .between)
      | more + 1 => ([], .within 0x80 0xBF more (value * 64 + bits)) := by
  have htoNat : (UInt8.ofNat (bits + 128)).toNat = bits + 128 :=
    UInt8.toNat_ofNat_of_lt' (show _ < 256 by omega)
  have hinside : low ≤ .ofNat (bits + 128) ∧ UInt8.ofNat (bits + 128) ≤ high := by
    simp only [UInt8.le_iff_toNat_le, htoNat]
    exact ⟨hlow, hhigh⟩
  cases more with
  | zero =>
      simp only [step, if_pos hinside, htoNat, Nat.add_sub_cancel]
  | succ more =>
      simp only [step, if_pos hinside, htoNat, Nat.add_sub_cancel]

theorem pieces_last {value bits : Nat} (hbits : bits < 64) (rest : List UInt8) :
    pieces (.within 0x80 0xBF 0 value) (.ofNat (bits + 128) :: rest) =
      some (Char.ofNat (value * 64 + bits)) :: pieces .between rest := by
  rw [pieces, step_within hbits (Nat.le_add_left _ _) (show _ ≤ 191 by omega)]
  rfl

theorem pieces_more {low high : UInt8} {more value bits : Nat} (hbits : bits < 64)
    (hlow : low.toNat ≤ bits + 128) (hhigh : bits + 128 ≤ high.toNat)
    (rest : List UInt8) :
    pieces (.within low high (more + 1) value) (.ofNat (bits + 128) :: rest) =
      pieces (.within 0x80 0xBF more (value * 64 + bits)) rest := by
  rw [pieces, step_within hbits hlow hhigh]
  rfl

/-!
## Characters

The bounds of the second byte leave out exactly the surrogates, what a shorter form can
hold, and what is beyond the last character.
-/

theorem begin_three {n : Nat} (hlow : 0xE0 ≤ n) (hhigh : n ≤ 0xEF) :
    begin (.ofNat n) =
      ([], .within (if n = 0xE0 then 0xA0 else 0x80) (if n = 0xED then 0x9F else 0xBF) 1
        (n - 0xE0)) := by
  rw [begin_ofNat (by omega), if_neg (by omega), if_neg (by omega)]
  by_cases hfirst : n = 0xE0
  · subst hfirst
    rfl
  · rw [if_neg hfirst]
    by_cases hlast : n = 0xED
    · subst hlast
      rfl
    · rw [if_neg hlast, if_pos (by omega), if_neg hfirst, if_neg hlast]

theorem begin_four {n : Nat} (hlow : 0xF0 ≤ n) (hhigh : n ≤ 0xF4) :
    begin (.ofNat n) =
      ([], .within (if n = 0xF0 then 0x90 else 0x80) (if n = 0xF4 then 0x8F else 0xBF) 2
        (n - 0xF0)) := by
  rw [begin_ofNat (by omega), if_neg (by omega), if_neg (by omega), if_neg (by omega),
    if_neg (by omega), if_neg (by omega)]
  by_cases hfirst : n = 0xF0
  · subst hfirst
    rfl
  · rw [if_neg hfirst]
    by_cases hlast : n = 0xF4
    · subst hlast
      rfl
    · rw [if_pos (by omega), if_neg hfirst, if_neg hlast]

theorem pieces_two {v : Nat} (hlow : 0x80 ≤ v) (hhigh : v ≤ 0x7FF) (rest : List UInt8) :
    pieces .between (.ofNat (v / 64 % 32 + 192) :: .ofNat (v % 64 + 128) :: rest) =
      some (Char.ofNat v) :: pieces .between rest := by
  have hbegin : begin (.ofNat (v / 64 % 32 + 192)) =
      ([], .within 0x80 0xBF 0 (v / 64 % 32)) := by
    rw [begin_ofNat (by omega), if_neg (by omega), if_pos (by omega), Nat.add_sub_cancel]
  have hvalue : v / 64 % 32 * 64 + v % 64 = v := by omega
  rw [pieces_begin hbegin, pieces_last (Nat.mod_lt _ (by omega)), hvalue]

theorem pieces_three {v : Nat} (hlow : 0x800 ≤ v) (hhigh : v ≤ 0xFFFF)
    (hvalid : v < 0xD800 ∨ 0xDFFF < v) (rest : List UInt8) :
    pieces .between (.ofNat (v / 4096 % 16 + 224) :: .ofNat (v / 64 % 64 + 128) ::
        .ofNat (v % 64 + 128) :: rest) =
      some (Char.ofNat v) :: pieces .between rest := by
  have hleast : (if v / 4096 % 16 + 224 = 0xE0 then (0xA0 : UInt8) else 0x80).toNat
      ≤ v / 64 % 64 + 128 := by
    split
    · show 160 ≤ _
      omega
    · exact Nat.le_add_left _ _
  have hgreatest : v / 64 % 64 + 128 ≤
      (if v / 4096 % 16 + 224 = 0xED then (0x9F : UInt8) else 0xBF).toNat := by
    split
    · show _ ≤ 159
      omega
    · show _ ≤ 191
      omega
  have hvalue : ((v / 4096 % 16 + 224 - 224) * 64 + v / 64 % 64) * 64 + v % 64 = v := by
    omega
  rw [pieces_begin (begin_three (by omega) (by omega)),
    pieces_more (Nat.mod_lt _ (by omega)) hleast hgreatest,
    pieces_last (Nat.mod_lt _ (by omega)), hvalue]

theorem pieces_four {v : Nat} (hlow : 0x10000 ≤ v) (hhigh : v < 0x110000)
    (rest : List UInt8) :
    pieces .between (.ofNat (v / 262144 % 8 + 240) :: .ofNat (v / 4096 % 64 + 128) ::
        .ofNat (v / 64 % 64 + 128) :: .ofNat (v % 64 + 128) :: rest) =
      some (Char.ofNat v) :: pieces .between rest := by
  have hleast : (if v / 262144 % 8 + 240 = 0xF0 then (0x90 : UInt8) else 0x80).toNat
      ≤ v / 4096 % 64 + 128 := by
    split
    · show 144 ≤ _
      omega
    · exact Nat.le_add_left _ _
  have hgreatest : v / 4096 % 64 + 128 ≤
      (if v / 262144 % 8 + 240 = 0xF4 then (0x8F : UInt8) else 0xBF).toNat := by
    split
    · show _ ≤ 143
      omega
    · show _ ≤ 191
      omega
  have hvalue : (((v / 262144 % 8 + 240 - 240) * 64 + v / 4096 % 64) * 64 + v / 64 % 64) * 64
      + v % 64 = v := by
    omega
  rw [pieces_begin (begin_four (by omega) (by omega)),
    pieces_more (Nat.mod_lt _ (by omega)) hleast hgreatest,
    pieces_more (Nat.mod_lt _ (by omega)) (Nat.le_add_left _ _) (show _ ≤ 191 by omega),
    pieces_last (Nat.mod_lt _ (by omega)), hvalue]

theorem pieces_character (c : Char) (rest : List UInt8) :
    pieces .between (String.utf8EncodeChar c ++ rest) = some c :: pieces .between rest := by
  have hvalid : c.toNat < 0xD800 ∨ 0xDFFF < c.toNat ∧ c.toNat < 0x110000 := c.valid
  have hchar : c.val.toNat = c.toNat := rfl
  simp only [String.utf8EncodeChar, hchar]
  split
  · have hbegin : begin (.ofNat c.toNat) = ([some c], .between) := by
      rw [begin_ofNat (by omega), if_pos (by omega), Char.ofNat_toNat]
    rw [List.singleton_append, pieces]
    simp only [step, hbegin, List.cons_append, List.nil_append]
  · simp only [apply_ite (· ++ rest), List.cons_append, List.nil_append]
    split
    · rw [pieces_two (by omega) (by omega), Char.ofNat_toNat]
    · split
      · rw [pieces_three (by omega) (by omega) (by omega), Char.ofNat_toNat]
      · rw [pieces_four (by omega) (by omega), Char.ofNat_toNat]

theorem pieces_encode (cs : List Char) : pieces .between (encode cs) = cs.map some := by
  induction cs with
  | nil =>
      rfl
  | cons c rest ih =>
      rw [encode_cons, pieces_character, ih, List.map_cons]

@[simp] theorem decodeLossy_encode (cs : List Char) : decodeLossy (encode cs) = cs := by
  rw [decodeLossy, pieces_encode, List.map_map]
  exact List.map_id cs

/-!
## Line feeds
-/

theorem lineFeed_mem_character {c : Char} : 10 ∈ String.utf8EncodeChar c ↔ c = '\n' := by
  have hsame : ∀ {n : Nat}, n < 256 → ((10 : UInt8) = .ofNat n ↔ n = 10) := by
    intro n hbyte
    rw [← UInt8.toNat_inj, UInt8.toNat_ofNat_of_lt' hbyte]
    exact eq_comm
  have hchar : c = '\n' ↔ c.val.toNat = 10 := by
    rw [← Char.toNat_inj]
    rfl
  rw [hchar, String.utf8EncodeChar]
  have hbound : c.val.toNat < 256 ∨ 256 ≤ c.val.toNat := Nat.lt_or_ge _ _
  split
  · rw [List.mem_singleton, hsame (by omega)]
  · split
    · simp only [List.mem_cons, List.not_mem_nil, or_false]
      rw [hsame (by omega), hsame (by omega)]
      omega
    · split
      · simp only [List.mem_cons, List.not_mem_nil, or_false]
        rw [hsame (by omega), hsame (by omega), hsame (by omega)]
        omega
      · simp only [List.mem_cons, List.not_mem_nil, or_false]
        rw [hsame (by omega), hsame (by omega), hsame (by omega), hsame (by omega)]
        omega

theorem lineFeed_mem_encode {cs : List Char} : 10 ∈ encode cs ↔ '\n' ∈ cs := by
  simp only [encode, List.mem_flatMap, lineFeed_mem_character]
  constructor
  · rintro ⟨c, hmem, rfl⟩
    exact hmem
  · intro hmem
    exact ⟨_, hmem, rfl⟩

end Utf8
end Text
end EndpointTrace
