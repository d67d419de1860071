import PickleInfra.Python.Numeral

/-!
# `Python.Padded` — decimal numbers of a fixed width

`f'{n:0{width}d}'` pads the digits of a number with zeros. On the numbers that fit, the padded texts are
exactly the texts of `width` digits, and reading them back is the inverse.
-/

namespace PickleInfra
namespace Python

open Text

/-- The digits of a number, with zeros before them up to the width. -/
def zfill (width n : Nat) : List Char :=
  List.replicate (width - (Nat.toDigits 10 n).length) '0' ++ Nat.toDigits 10 n

theorem zfill_digits (width n : Nat) : (zfill width n).all isDigit = true := by
  unfold zfill
  rw [List.all_append, Bool.and_eq_true, toDigits_isDigit]
  refine ⟨?_, rfl⟩
  rw [List.all_eq_true]
  intro c hc
  rw [List.eq_of_mem_replicate hc]
  decide

theorem zfill_length {width n : Nat} (hpos : 0 < width) (h : n < 10 ^ width) :
    (zfill width n).length = width := by
  have hlen : (Nat.toDigits 10 n).length ≤ width :=
    (Nat.length_toDigits_le_iff (by decide) hpos).mpr h
  unfold zfill
  rw [List.length_append, List.length_replicate]
  omega

theorem digitsValue_zfill (width n : Nat) : digitsValue (zfill width n) = n := by
  unfold zfill
  induction width - (Nat.toDigits 10 n).length with
  | zero => exact Numeral.digitsValue_toDigits n
  | succ k ih =>
      rw [List.replicate_succ, List.cons_append, digitsValue_cons, ih]
      show 0 * _ + n = n
      omega

/-- Texts of the same number of digits write different numbers. -/
theorem digitsValue_inj : ∀ {ds es : List Char}, ds.all isDigit = true → es.all isDigit = true →
    ds.length = es.length → digitsValue ds = digitsValue es → ds = es
  | [], [], _, _, _, _ => rfl
  | [], _ :: _, _, _, hlen, _ => nomatch hlen
  | _ :: _, [], _, _, hlen, _ => nomatch hlen
  | d :: ds, e :: es, hd, he, hlen, hval => by
      rw [List.all_cons, Bool.and_eq_true] at hd he
      have hlen' : ds.length = es.length := Nat.succ.inj hlen
      have hds := digitsValue_lt hd.2
      have hes := digitsValue_lt he.2
      have hdb := digit_bounds hd.1
      have heb := digit_bounds he.1
      rw [digitsValue_cons, digitsValue_cons, hlen'] at hval
      rw [hlen'] at hds
      show d :: ds = e :: es
      have hzero : '0'.toNat = 48 := rfl
      rw [hzero] at hval
      -- The rest is smaller than the weight of the first digit, so quotient and remainder agree.
      have hfirst : d.toNat - 48 = e.toNat - 48 := by
        have hq := congrArg (· / 10 ^ es.length) hval
        have hpos : 0 < 10 ^ es.length := Nat.pow_pos (by decide)
        rwa [Nat.mul_comm, Nat.mul_add_div hpos, Nat.div_eq_of_lt hds, Nat.mul_comm (e.toNat - 48),
          Nat.mul_add_div hpos, Nat.div_eq_of_lt hes, Nat.add_zero, Nat.add_zero] at hq
      rw [hfirst] at hval
      have hrest : ds = es := digitsValue_inj hd.2 he.2 hlen' (Nat.add_left_cancel hval)
      have hchar : d = e := Char.toNat_inj.mp (by omega)
      rw [hchar, hrest]

/-- Padding to the width of the text gives the text back. -/
theorem zfill_digitsValue {ds : List Char} (hpos : 0 < ds.length) (h : ds.all isDigit = true) :
    zfill ds.length (digitsValue ds) = ds :=
  digitsValue_inj (zfill_digits _ _) h (zfill_length hpos (digitsValue_lt h)) (digitsValue_zfill _ _)

end Python
end PickleInfra
