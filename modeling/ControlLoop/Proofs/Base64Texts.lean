import ControlLoop.Text.Base64
import Mathlib.Tactic

/-!
# Texts in base 64

Every list of octets is read from the text that it is written as.
-/
namespace ControlLoop.Text.Base64

/-- Each of the 64 characters is a single octet and not the padding, and is read as the value that it
is written for. -/
lemma symbol_spec {n : Nat} (h : n < 64) :
    value? (symbol n) = some n ∧ symbol n ≠ '=' ∧ (symbol n).toNat < 128 := by
  revert n
  decide +kernel

lemma decodeChars_encodeChars (octets : List UInt8) (offset : Nat) :
    decodeChars offset (encodeChars octets) = .ok octets := by
  fun_induction encodeChars octets generalizing offset with
  | case1 => rfl
  | case2 a n =>
    have ha := a.toNat_lt
    obtain ⟨hx, -⟩ := symbol_spec (show n / 4 < 64 by omega)
    obtain ⟨hy, -⟩ := symbol_spec (show n % 4 * 16 < 64 by omega)
    have hjoined : (n / 4 * 64 + n % 4 * 16) / 16 = a.toNat := by omega
    rw [decodeChars, hx, hy]
    simp [hjoined]
  | case3 a b n =>
    have ha := a.toNat_lt
    have hb := b.toNat_lt
    obtain ⟨hx, -⟩ := symbol_spec (show n / 1024 < 64 by omega)
    obtain ⟨hy, -⟩ := symbol_spec (show n / 16 % 64 < 64 by omega)
    obtain ⟨hz, hpad, -⟩ := symbol_spec (show n % 16 * 4 < 64 by omega)
    have hjoined : (n / 1024 * 64 + n / 16 % 64) * 64 + n % 16 * 4 = n * 4 := by omega
    have hfirst : n * 4 / 1024 = a.toNat := by omega
    have hsecond : n % 256 = b.toNat := by omega
    rw [decodeChars, hx, hy, hz]
    · simp [hjoined, hfirst, hsecond]
    · exact hpad
  | case4 a b c rest n ih =>
    have ha := a.toNat_lt
    have hb := b.toNat_lt
    have hc := c.toNat_lt
    obtain ⟨hx, -⟩ := symbol_spec (show n / 262144 < 64 by omega)
    obtain ⟨hy, -⟩ := symbol_spec (show n / 4096 % 64 < 64 by omega)
    obtain ⟨hz, -⟩ := symbol_spec (show n / 64 % 64 < 64 by omega)
    obtain ⟨hw, hpad, -⟩ := symbol_spec (show n % 64 < 64 by omega)
    have hjoined : ((n / 262144 * 64 + n / 4096 % 64) * 64 + n / 64 % 64) * 64 + n % 64 = n := by
      omega
    have hfirst : n / 65536 = a.toNat := by omega
    have hsecond : n / 256 % 256 = b.toNat := by omega
    have hthird : n % 256 = c.toNat := by omega
    rw [decodeChars, hx, hy, hz, hw, ih]
    · simp only [hjoined, hfirst, hsecond, hthird]
      simp
    · exact fun _ heq _ => hpad heq
    · exact fun heq _ => hpad heq

lemma length_encodeChars (octets : List UInt8) : (encodeChars octets).length % 4 = 0 := by
  fun_induction encodeChars octets with
  | case1 | case2 | case3 => simp
  | case4 a b c rest n ih =>
    simp only [List.length_cons]
    omega

lemma octet_of_mem_encodeChars {octets : List UInt8} :
    ∀ c ∈ encodeChars octets, c.toNat < 128 := by
  fun_induction encodeChars octets with
  | case1 => simp
  | case2 a n =>
    have ha := a.toNat_lt
    simp only [List.forall_mem_cons]
    exact ⟨(symbol_spec (by omega)).2.2, (symbol_spec (by omega)).2.2, by decide, by decide, by simp⟩
  | case3 a b n =>
    have ha := a.toNat_lt
    have hb := b.toNat_lt
    simp only [List.forall_mem_cons]
    exact ⟨(symbol_spec (by omega)).2.2, (symbol_spec (by omega)).2.2,
      (symbol_spec (by omega)).2.2, by decide, by simp⟩
  | case4 a b c rest n ih =>
    have ha := a.toNat_lt
    have hb := b.toNat_lt
    have hc := c.toNat_lt
    simp only [List.forall_mem_cons]
    exact ⟨(symbol_spec (by omega)).2.2, (symbol_spec (by omega)).2.2,
      (symbol_spec (by omega)).2.2, (symbol_spec (by omega)).2.2, ih⟩

/-- Characters that are single octets are taken as they are. -/
lemma octetChars_ofList {l : List Char} (h : ∀ c ∈ l, c.toNat < 128) :
    octetChars (String.ofList l) = l := by
  rw [octetChars, String.toUTF8_eq_toByteArray, String.toByteArray_ofList, List.utf8Encode,
    List.data_toByteArray]
  induction l with
  | nil => rfl
  | cons c l ih =>
    rw [List.forall_mem_cons] at h
    have hsize : c.utf8Size = 1 := by
      rw [Char.utf8Size_eq_one_iff, UInt32.le_iff_toNat_le]
      exact Nat.le_of_lt_succ h.1
    have hchar : Char.ofNat c.val.toUInt8.toNat = c := by
      have hoctet : c.val.toNat < 256 := h.1.trans (by decide)
      rw [UInt32.toNat_toUInt8, Nat.mod_eq_of_lt hoctet]
      exact Char.ofNat_toNat c
    simp only [List.flatMap_cons, String.utf8EncodeChar_eq_singleton hsize, List.map_append,
      List.map_cons, List.map_nil, hchar, ih h.2]
    rfl

theorem decode_encode (octets : List UInt8) : decode (encode octets) = .ok octets := by
  have hstray : strayLast? (encodeChars octets) = none := by
    rw [strayLast?, if_neg (by simp [length_encodeChars])]
  rw [decode, encode, octetChars_ofList octet_of_mem_encodeChars, hstray]
  exact decodeChars_encodeChars octets 0

end ControlLoop.Text.Base64
