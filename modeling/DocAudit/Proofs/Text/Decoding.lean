import DocAudit.Report
import Mathlib.Algebra.GroupWithZero.Nat
import Mathlib.Data.List.Count

/-!
Decoding keeps code. Whatever bytes stand around it, an ASCII byte is read as its own character and
no other byte is; and a text is read back from its encoding.
-/

set_option autoImplicit false

namespace DocAudit.Text.Utf8

def asciiChar (c : Char) : Bool := c.toNat < 0x80

def asciiByte (b : UInt8) : Bool := b.toNat < 0x80

def asciiText (s : List Char) : List Nat := (s.filter asciiChar).map Char.toNat

def asciiBytes (bytes : List UInt8) : List Nat := (bytes.filter asciiByte).map UInt8.toNat

/-! ### ASCII bytes -/

-- The code points that a begun sequence can still come to lie from `least` up to below `limit`.
def Begun.least (p : Begun) : Nat := (p.bits * 64 + (p.low - 0x80)) * 64 ^ p.more

def Begun.limit (p : Begun) : Nat := (p.bits * 64 + (p.high - 0x80) + 1) * 64 ^ p.more

-- What begins no ASCII character and ends in no half of a pair.
structure Begun.Sound (p : Begun) : Prop where
  tail : 0x80 ≤ p.low
  wide : 0x80 ≤ p.least
  scalar : p.limit ≤ 0xD800 ∨ (0xE000 ≤ p.least ∧ p.limit ≤ 0x110000)

def Sound (state : Option Begun) : Prop := ∀ p ∈ state, p.Sound

theorem ascii_text_append (s t : List Char) : asciiText (s ++ t) = asciiText s ++ asciiText t := by
  simp [asciiText]

theorem ascii_bytes_cons (b : UInt8) (bytes : List UInt8) :
    asciiBytes (b :: bytes) = asciiBytes [b] ++ asciiBytes bytes := by
  rw [← List.singleton_append, asciiBytes, List.filter_append, List.map_append]
  rfl

theorem ascii_replacement : asciiText [replacement] = [] := by decide

theorem char_of_scalar (n : Nat) (scalar : n < 0xD800 ∨ (0xE000 ≤ n ∧ n < 0x110000)) :
    (Char.ofNat n).toNat = n := by
  have valid : n.isValidChar := by
    rcases scalar with low | ⟨above, below⟩
    · exact .inl low
    · exact .inr ⟨above, below⟩
  rw [Char.ofNat, dif_pos valid]
  rfl

theorem ascii_of_wide (n : Nat) (wide : 0x80 ≤ n) (scalar : n < 0xD800 ∨ (0xE000 ≤ n ∧ n < 0x110000)) :
    asciiText [Char.ofNat n] = [] := by
  have other : asciiChar (Char.ofNat n) = false := by
    rw [asciiChar, char_of_scalar n scalar]
    simpa using wide
  simp [asciiText, other]

theorem wide_byte (b : UInt8) (wide : 0x80 ≤ b.toNat) : asciiBytes [b] = [] := by
  have other : asciiByte b = false := by simpa [asciiByte] using wide
  simp [asciiBytes, other]

theorem sound_none : Sound none := by
  intro p member
  cases member

theorem sound_some (p : Begun) (sound : p.Sound) : Sound (some p) := by
  intro q member
  exact Option.some.inj member ▸ sound

theorem first_keeps_ascii (b : UInt8) :
    asciiText (first b).1 = asciiBytes [b] ∧ Sound (first b).2 := by
  unfold first
  dsimp only
  by_cases ascii : b.toNat < 0x80
  · have value := char_of_scalar b.toNat (.inl (by omega))
    rw [if_pos ascii]
    exact ⟨by simp [asciiText, asciiBytes, asciiChar, asciiByte, value, ascii], sound_none⟩
  · rw [if_neg ascii, wide_byte b (by omega)]
    split
    · exact ⟨ascii_replacement, sound_none⟩
    split
    · refine ⟨rfl, sound_some _ ⟨?_, ?_, ?_⟩⟩ <;> simp only [Begun.least, Begun.limit] <;> omega
    split
    · exact ⟨rfl, sound_some _ (by constructor <;> decide)⟩
    split
    · exact ⟨rfl, sound_some _ (by constructor <;> decide)⟩
    split
    · refine ⟨rfl, sound_some _ ⟨?_, ?_, ?_⟩⟩ <;> simp only [Begun.least, Begun.limit] <;> omega
    split
    · exact ⟨rfl, sound_some _ (by constructor <;> decide)⟩
    split
    · exact ⟨rfl, sound_some _ (by constructor <;> decide)⟩
    split
    · refine ⟨rfl, sound_some _ ⟨?_, ?_, ?_⟩⟩ <;> simp only [Begun.least, Begun.limit] <;> omega
    · exact ⟨ascii_replacement, sound_none⟩

-- A byte that goes on with a sequence narrows what the sequence can come to.
theorem begun_narrows (p : Begun) (b : UInt8) (low : p.low ≤ b.toNat) (high : b.toNat ≤ p.high) :
    p.least ≤ (p.bits * 64 + (b.toNat - 0x80)) * 64 ^ p.more ∧
      (p.bits * 64 + (b.toNat - 0x80) + 1) * 64 ^ p.more ≤ p.limit :=
  ⟨Nat.mul_le_mul_right _ (by omega), Nat.mul_le_mul_right _ (by omega)⟩

theorem next_keeps_ascii (state : Option Begun) (b : UInt8) (sound : Sound state) :
    asciiText (next state b).1 = asciiBytes [b] ∧ Sound (next state b).2 := by
  cases state with
  | none => exact first_keeps_ascii b
  | some p =>
      obtain ⟨tail, wide, scalar⟩ := sound p rfl
      rw [next]
      by_cases inside : p.low ≤ b.toNat ∧ b.toNat ≤ p.high
      · obtain ⟨least, limit⟩ := begun_narrows p b inside.1 inside.2
        rw [if_pos inside, wide_byte b (by omega)]
        generalize p.bits * 64 + (b.toNat - 0x80) = bits at least limit ⊢
        cases owed : p.more with
        | zero =>
            rw [owed, Nat.pow_zero, Nat.mul_one] at least limit
            exact ⟨ascii_of_wide bits (by omega) (by omega), sound_none⟩
        | succ more =>
            rw [owed, Nat.pow_succ', ← Nat.mul_assoc] at least limit
            have begins : Begun.least { bits, more } = bits * 64 * 64 ^ more := by
              rw [Begun.least, Nat.sub_self, Nat.add_zero]
            have ends : Begun.limit { bits, more } = (bits + 1) * 64 * 64 ^ more := by
              simp only [Begun.limit]
              congr 1
              omega
            have narrowed : Begun.Sound { bits, more } := ⟨by simp, by omega, by omega⟩
            exact ⟨rfl, sound_some _ narrowed⟩
      · obtain ⟨text, later⟩ := first_keeps_ascii b
        rw [if_neg inside]
        exact ⟨text, later⟩

theorem decode_keeps_ascii (bytes : List UInt8) (state : Option Begun) (sound : Sound state) :
    asciiText (decodeFrom state bytes) = asciiBytes bytes := by
  induction bytes generalizing state with
  | nil =>
      rw [decodeFrom]
      split
      · exact ascii_replacement
      · rfl
  | cons b bytes ih =>
      obtain ⟨text, later⟩ := next_keeps_ascii state b sound
      rw [decodeFrom, ascii_text_append, text, ih _ later, ascii_bytes_cons b bytes]

-- Each ASCII character stands in the text as often as its byte in the bytes.
theorem decoded_count (bytes : List UInt8) (c : Char) (ascii : asciiChar c = true) :
    (decodeChars bytes).count c = bytes.count (UInt8.ofNat c.toNat) := by
  have small : c.toNat < 0x80 := by simpa [asciiChar] using ascii
  have byte : (UInt8.ofNat c.toNat).toNat = c.toNat := UInt8.toNat_ofNat_of_lt' (by simp [UInt8.size]; omega)
  have kept := congrArg (List.count c.toNat) (decode_keeps_ascii bytes none sound_none)
  have chars := List.count_map_of_injective ((decodeChars bytes).filter asciiChar) Char.toNat
    (fun _ _ same => Char.toNat_inj.mp same) c
  have octets := List.count_map_of_injective (bytes.filter asciiByte) UInt8.toNat
    (fun _ _ same => UInt8.toNat_inj.mp same) (UInt8.ofNat c.toNat)
  have short : asciiByte (UInt8.ofNat c.toNat) = true := by simpa [asciiByte, byte] using small
  rw [byte, List.count_filter short] at octets
  rw [List.count_filter ascii] at chars
  exact chars.symm.trans (kept.trans octets)

/-! ### Encoded text -/

theorem char_scalar (c : Char) : c.toNat < 0xD800 ∨ (0xE000 ≤ c.toNat ∧ c.toNat < 0x110000) := by
  have valid : c.toNat.isValidChar := c.valid
  simp only [Nat.isValidChar] at valid
  omega

-- The bytes behind the first one, from the highest bits to the lowest.
def tails (n : Nat) : Nat → List UInt8
  | 0 => [tailByte n 0]
  | k + 1 => tailByte n (k + 1) :: tails n k

theorem tail_value (n place : Nat) : (tailByte n place).toNat = 0x80 + n / 64 ^ place % 64 := by
  have below : 0x80 + n / 64 ^ place % 64 < UInt8.size := by
    simp only [UInt8.size]
    omega
  exact UInt8.toNat_ofNat_of_lt' below

theorem place_value (n k : Nat) : n / 64 ^ (k + 1) * 64 + n / 64 ^ k % 64 = n / 64 ^ k := by
  rw [Nat.pow_succ, ← Nat.div_div_eq_div_mul, Nat.mul_comm, Nat.div_add_mod]

-- The sequence of `n` is begun: it lacks the last `k + 1` bytes, and the next of them is admitted.
structure Begun.Lacks (p : Begun) (n k : Nat) : Prop where
  bits : p.bits = n / 64 ^ (k + 1)
  more : p.more = k
  low : p.low ≤ 0x80 + n / 64 ^ k % 64
  high : 0x80 + n / 64 ^ k % 64 ≤ p.high

theorem next_lacks (p : Begun) (n k : Nat) (lacks : p.Lacks n k) :
    next (some p) (tailByte n k) =
      match k with
      | 0 => ([Char.ofNat n], none)
      | k + 1 => ([], some { bits := n / 64 ^ (k + 1), more := k }) := by
  have value := tail_value n k
  have inside : p.low ≤ (tailByte n k).toNat ∧ (tailByte n k).toNat ≤ p.high := by
    rw [value]
    exact ⟨lacks.low, lacks.high⟩
  have bits : p.bits * 64 + ((tailByte n k).toNat - 0x80) = n / 64 ^ k := by
    rw [value, lacks.bits, Nat.add_sub_cancel_left, place_value]
  rw [next, if_pos inside, bits, lacks.more]
  cases k with
  | zero => rw [Nat.pow_zero, Nat.div_one]
  | succ k => rfl

theorem decode_tails (k n : Nat) (p : Begun) (lacks : p.Lacks n k) (bytes : List UInt8) :
    decodeFrom (some p) (tails n k ++ bytes) = Char.ofNat n :: decodeFrom none bytes := by
  induction k generalizing p with
  | zero =>
      rw [tails, List.singleton_append, decodeFrom, next_lacks p n 0 lacks]
      rfl
  | succ k ih =>
      have narrowed : Begun.Lacks { bits := n / 64 ^ (k + 1), more := k } n k := by
        refine ⟨rfl, rfl, Nat.le_add_right _ _, ?_⟩
        dsimp only
        omega
      rw [tails, List.cons_append, decodeFrom, next_lacks p n (k + 1) lacks]
      exact ih _ narrowed

theorem first_of_two (n : Nat) (least : 0x80 ≤ n) (limit : n < 0x800) :
    ∃ p, first (UInt8.ofNat (0xC0 + n / 64)) = ([], some p) ∧ p.Lacks n 0 := by
  have value : (UInt8.ofNat (0xC0 + n / 64)).toNat = 0xC0 + n / 64 :=
    UInt8.toNat_ofNat_of_lt' (by simp only [UInt8.size]; omega)
  refine ⟨{ bits := n / 64, more := 0 }, ?_, ⟨by simp, rfl, by simp, by simp; omega⟩⟩
  rw [first, value]
  simp (disch := omega) only [if_neg, if_pos, Nat.add_sub_cancel_left]

-- Behind `E0` and `ED` the next byte has bounds of its own: what is below needs fewer bytes, and
-- what is above is half a pair.
theorem first_of_three (n : Nat) (least : 0x800 ≤ n) (limit : n < 0x10000)
    (scalar : n < 0xD800 ∨ 0xE000 ≤ n) :
    ∃ p, first (UInt8.ofNat (0xE0 + n / 64 ^ 2)) = ([], some p) ∧ p.Lacks n 1 := by
  have value : (UInt8.ofNat (0xE0 + n / 64 ^ 2)).toNat = 0xE0 + n / 64 ^ 2 :=
    UInt8.toNat_ofNat_of_lt' (by simp only [UInt8.size]; omega)
  rw [first, value]
  simp (disch := omega) only [if_neg]
  by_cases lowest : n / 64 ^ 2 = 0
  · rw [lowest]
    exact ⟨_, rfl, lowest.symm, rfl, by simp; omega, by simp; omega⟩
  by_cases paired : n / 64 ^ 2 = 13
  · rw [paired]
    exact ⟨_, rfl, paired.symm, rfl, by simp, by simp; omega⟩
  · simp (disch := omega) only [if_neg, if_pos, Nat.add_sub_cancel_left]
    exact ⟨_, rfl, rfl, rfl, by simp, by simp; omega⟩

theorem first_of_four (n : Nat) (least : 0x10000 ≤ n) (limit : n < 0x110000) :
    ∃ p, first (UInt8.ofNat (0xF0 + n / 64 ^ 3)) = ([], some p) ∧ p.Lacks n 2 := by
  have value : (UInt8.ofNat (0xF0 + n / 64 ^ 3)).toNat = 0xF0 + n / 64 ^ 3 :=
    UInt8.toNat_ofNat_of_lt' (by simp only [UInt8.size]; omega)
  rw [first, value]
  simp (disch := omega) only [if_neg]
  by_cases lowest : n / 64 ^ 3 = 0
  · rw [lowest]
    exact ⟨_, rfl, lowest.symm, rfl, by simp; omega, by simp; omega⟩
  by_cases highest : n / 64 ^ 3 = 4
  · rw [highest]
    exact ⟨_, rfl, highest.symm, rfl, by simp, by simp; omega⟩
  · simp (disch := omega) only [if_neg, if_pos, Nat.add_sub_cancel_left]
    exact ⟨_, rfl, rfl, rfl, by simp, by simp; omega⟩

theorem decode_sequence (b : UInt8) (n k : Nat) (bytes : List UInt8)
    (begins : ∃ p, first b = ([], some p) ∧ p.Lacks n k) :
    decodeFrom none (b :: (tails n k ++ bytes)) = Char.ofNat n :: decodeFrom none bytes := by
  obtain ⟨p, read, lacks⟩ := begins
  rw [decodeFrom, next, read]
  exact decode_tails k n p lacks bytes

theorem decode_char (c : Char) (bytes : List UInt8) :
    decodeFrom none (encodeChar c ++ bytes) = c :: decodeFrom none bytes := by
  have scalar := char_scalar c
  have back := Char.ofNat_toNat c
  rw [encodeChar]
  generalize c.toNat = n at scalar back ⊢
  subst back
  split
  · rename_i ascii
    have value : (UInt8.ofNat n).toNat = n := UInt8.toNat_ofNat_of_lt' (by simp only [UInt8.size]; omega)
    rw [List.singleton_append, decodeFrom, next, first, value, if_pos ascii]
    rfl
  split
  · exact decode_sequence _ n 0 bytes (first_of_two n (by omega) (by omega))
  split
  · exact decode_sequence _ n 1 bytes (first_of_three n (by omega) (by omega) (by omega))
  · exact decode_sequence _ n 2 bytes (first_of_four n (by omega) (by omega))

theorem decode_encode (s : String) : decode (encode s) = s := by
  have chars : ∀ cs : List Char, decodeChars (encodeChars cs) = cs := by
    intro cs
    induction cs with
    | nil => rfl
    | cons c cs ih =>
        rw [decodeChars, encodeChars, List.flatMap_cons, decode_char c]
        exact congrArg (c :: ·) ih
  rw [decode, encode, chars, String.ofList_toList]

-- The encoding is the one that strings are stored in.
theorem encode_char_standard (c : Char) : encodeChar c = String.utf8EncodeChar c := by
  have scalar := char_scalar c
  have byte : ∀ n m : Nat, n = m → UInt8.ofNat n = UInt8.ofNat m := fun n m same => congrArg UInt8.ofNat same
  rw [encodeChar, String.utf8EncodeChar, Char.toNat_val]
  generalize c.toNat = n at scalar ⊢
  have last : tailByte n 0 = UInt8.ofNat (n % 64 + 128) := byte _ _ (by simp; omega)
  have middle : tailByte n 1 = UInt8.ofNat (n / 64 % 64 + 128) := byte _ _ (by simp; omega)
  have high : tailByte n 2 = UInt8.ofNat (n / 4096 % 64 + 128) := byte _ _ (by simp; omega)
  rw [last, middle, high]
  split
  · rw [if_pos (by omega)]
  split
  · rw [if_neg (by omega), if_pos (by omega), byte _ (n / 64 % 32 + 192) (by omega)]
  split
  · rw [if_neg (by omega), if_neg (by omega), if_pos (by omega), byte _ (n / 4096 % 16 + 224) (by simp; omega)]
  · rw [if_neg (by omega), if_neg (by omega), if_neg (by omega), byte _ (n / 262144 % 8 + 240) (by simp; omega)]

theorem encode_standard (s : String) : encode s = s.toUTF8.data.toList := by
  have bytes : s.toUTF8 = (s.toList.flatMap String.utf8EncodeChar).toByteArray := by
    rw [String.toUTF8, ← List.utf8Encode, ← String.toByteArray_ofList, String.ofList_toList]
  rw [bytes, List.toList_data_toByteArray, encode, encodeChars, funext encode_char_standard]

end DocAudit.Text.Utf8

namespace DocAudit

open Text.Utf8

theorem decoding_keeps_code (flags : SkipFlags) (path : String) :
    (∀ bytes : List UInt8,
      let text := decode bytes
      checkBytes flags path bytes = checkSource flags path text ∧
      asciiText text.toList = asciiBytes bytes ∧
      text.toList.count '\n' = bytes.count 0x0A ∧
      ∀ c : Char, c.toNat < 0x80 → text.toList.count c = bytes.count (UInt8.ofNat c.toNat)) ∧
    ∀ source : String, encode source = source.toUTF8.data.toList ∧
      checkBytes flags path (encode source) = checkSource flags path source := by
  constructor
  · intro bytes text
    have chars : text.toList = decodeChars bytes := String.toList_ofList
    have counts : ∀ c : Char, c.toNat < 0x80 → text.toList.count c = bytes.count (UInt8.ofNat c.toNat) := by
      intro c small
      rw [chars]
      exact decoded_count bytes c (decide_eq_true small)
    refine ⟨rfl, ?_, counts '\n' (by decide), counts⟩
    rw [chars]
    exact decode_keeps_ascii bytes none sound_none
  · intro source
    refine ⟨encode_standard source, ?_⟩
    rw [checkBytes, decode_encode]

-- Cut off, overlong and paired sequences between the characters of `{`, a line break, `}` and `"`.
theorem decoding_keeps_code_between_stray_bytes :
    let bytes : List UInt8 := [0xE2, 0x82, 0x7B, 0xF0, 0x9F, 0x0A, 0xC0, 0x7D, 0xED, 0xA0, 0x80, 0x22, 0xF4]
    asciiText (decode bytes).toList = [0x7B, 0x0A, 0x7D, 0x22] ∧
      '{'.toNat < 0x80 ∧ (decode bytes).toList.count '{' = 1 := by
  intro bytes
  obtain ⟨-, kept, -, counts⟩ := (decoding_keeps_code {} "a.php").1 bytes
  exact ⟨kept, by decide, counts '{' (by decide)⟩

end DocAudit
