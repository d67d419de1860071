import Mathlib.Data.List.Perm.Basic

/-!
# `Python.Utf8` — texts as bytes, line by line

The byte of a line feed occurs in UTF-8 as a line feed only. So bytes that are cut at line feeds are a text
exactly when each of the pieces is one, whatever their order.
-/

namespace PickleInfra
namespace Python
namespace Utf8

/-- The bytes of a text. -/
def encode (cs : List Char) : List UInt8 := cs.flatMap String.utf8EncodeChar

/-- Pieces that are closed by a mark. -/
def closed {α : Type} (mark : α) (pieces : List (List α)) : List α := pieces.flatMap fun l => l ++ [mark]

theorem encode_append (a b : List Char) : encode (a ++ b) = encode a ++ encode b := List.flatMap_append

theorem encode_feed : encode ['\n'] = [10] := by decide

/-- The byte of a line feed is no part of another character. -/
theorem eq_feed {c : Char} (h : (10 : UInt8) ∈ String.utf8EncodeChar c) : c = '\n' := by
  obtain ⟨i, hi, hten⟩ := List.mem_iff_getElem.mp h
  have hfirst : (String.utf8EncodeChar c)[i].IsUTF8FirstByte := by
    rw [hten]
    decide
  obtain rfl := UInt8.isUTF8FirstByte_getElem_utf8EncodeChar.mp hfirst
  -- so it is the first byte, and decoding the bytes from there gives a line feed
  obtain ⟨more, hmore⟩ : ∃ more, String.utf8EncodeChar c = String.utf8EncodeChar '\n' ++ more := by
    cases hc : String.utf8EncodeChar c with
    | nil => exact absurd hc String.utf8EncodeChar_ne_nil
    | cons x more =>
        simp only [hc, List.getElem_cons_zero] at hten
        exact ⟨more, by rw [hten]; rfl⟩
  have hself : ((String.utf8EncodeChar c).toByteArray ++ ByteArray.empty).utf8DecodeChar? 0 = some c :=
    ByteArray.utf8DecodeChar?_utf8EncodeChar_append
  rw [ByteArray.append_empty, hmore, List.toByteArray_append,
    ByteArray.utf8DecodeChar?_utf8EncodeChar_append] at hself
  exact (Option.some.inj hself).symm

/-- Bytes of a text that have a line feed are a text before it, and one after it. -/
theorem encode_cut {cs : List Char} {l rest : List UInt8} (h : encode cs = l ++ 10 :: rest) :
    ∃ a b, cs = a ++ '\n' :: b ∧ encode a = l ∧ encode b = rest := by
  induction cs generalizing l with
  | nil => exact absurd h (by simp [encode])
  | cons c cs ih =>
      have hc : String.utf8EncodeChar c ++ encode cs = l ++ 10 :: rest := h
      rcases List.append_eq_append_iff.mp hc with ⟨l', rfl, hrest⟩ | ⟨more, hmore, hrest⟩
      · obtain ⟨a, b, rfl, ha, hb⟩ := ih hrest
        exact ⟨c :: a, b, rfl, by rw [← ha]; rfl, hb⟩
      · -- the line feed is in the first character, or is the one after it
        cases more with
        | nil =>
            rw [List.append_nil] at hmore
            obtain ⟨a, b, rfl, ha, hb⟩ := @ih [] hrest.symm
            refine ⟨c :: a, b, rfl, ?_, hb⟩
            rw [← hmore]
            show String.utf8EncodeChar c ++ encode a = _
            rw [ha, List.append_nil]
        | cons x more =>
            rw [List.cons_append] at hrest
            obtain ⟨rfl, hafter⟩ := List.cons.inj hrest
            have hmem : (10 : UInt8) ∈ String.utf8EncodeChar c := by
              rw [hmore]
              exact List.mem_append_right _ List.mem_cons_self
            obtain rfl := eq_feed hmem
            have hone : [(10 : UInt8)] = l ++ 10 :: more := hmore
            cases l with
            | nil =>
                obtain rfl : more = [] := (List.cons.inj hone).2.symm
                exact ⟨[], cs, rfl, rfl, hafter.symm⟩
            | cons y l =>
                have hlength := congrArg List.length hone
                simp at hlength

/-- **Closed pieces are a text exactly when each piece is one.** -/
theorem encode_closed {cs : List Char} {pieces : List (List UInt8)} :
    encode cs = closed 10 pieces ↔
      ∃ texts, List.Forall₂ (fun l t => encode t = l) pieces texts ∧ cs = closed '\n' texts := by
  constructor
  · intro h
    induction pieces generalizing cs with
    | nil =>
        refine ⟨[], .nil, ?_⟩
        cases cs with
        | nil => rfl
        | cons c cs =>
            have hnil : String.utf8EncodeChar c ++ encode cs = [] := h
            exact absurd (List.append_eq_nil_iff.mp hnil).1 String.utf8EncodeChar_ne_nil
    | cons l pieces ih =>
        have hcut : encode cs = l ++ 10 :: closed 10 pieces := by
          rw [h]
          show (l ++ [10]) ++ closed 10 pieces = _
          rw [List.append_assoc]
          rfl
        obtain ⟨a, b, rfl, ha, hb⟩ := encode_cut hcut
        obtain ⟨texts, htexts, rfl⟩ := ih hb
        refine ⟨a :: texts, .cons ha htexts, ?_⟩
        show _ = (a ++ ['\n']) ++ closed '\n' texts
        rw [List.append_assoc]
        rfl
  · rintro ⟨texts, htexts, rfl⟩
    induction htexts with
    | nil => rfl
    | cons hfirst _ ih =>
        show encode ((_ ++ ['\n']) ++ closed '\n' _) = (_ ++ [10]) ++ closed 10 _
        rw [encode_append, encode_append, hfirst, encode_feed, ih]

/-- What bytes are decoded to. -/
theorem fromUTF8?_eq {l : List UInt8} {cs : List Char} :
    String.fromUTF8? l.toByteArray = some (String.ofList cs) ↔ encode cs = l := by
  have hbytes : (String.ofList cs).toByteArray = (encode cs).toByteArray := String.toByteArray_ofList
  unfold String.fromUTF8?
  constructor
  · intro h
    split at h
    · have hs := congrArg String.toByteArray (Option.some.inj h)
      rw [hbytes] at hs
      exact (List.toByteArray_inj.mp hs).symm
    · cases h
  · rintro rfl
    rw [← hbytes]
    exact dif_pos (String.ofList cs).isValidUTF8

/-- **Bytes whose lines are in another order** are decoded to the text whose lines are in that order. -/
theorem fromUTF8?_perm {pieces pieces' : List (List UInt8)} (h : pieces.Perm pieces') :
    (∃ texts texts', texts.Perm texts' ∧
      String.fromUTF8? (closed 10 pieces).toByteArray = some (String.ofList (closed '\n' texts)) ∧
      String.fromUTF8? (closed 10 pieces').toByteArray = some (String.ofList (closed '\n' texts'))) ∨
    String.fromUTF8? (closed 10 pieces).toByteArray = none ∧
      String.fromUTF8? (closed 10 pieces').toByteArray = none := by
  have hsome : ∀ {ps qs : List (List UInt8)} {s : String}, ps.Perm qs →
      String.fromUTF8? (closed 10 ps).toByteArray = some s → ∃ texts texts', texts.Perm texts' ∧
        String.fromUTF8? (closed 10 ps).toByteArray = some (String.ofList (closed '\n' texts)) ∧
        String.fromUTF8? (closed 10 qs).toByteArray = some (String.ofList (closed '\n' texts')) := by
    intro ps qs s hperm hs
    rw [← String.ofList_toList (s := s), fromUTF8?_eq, encode_closed] at hs
    obtain ⟨texts, htexts, -⟩ := hs
    obtain ⟨texts', htexts', hperm'⟩ := List.perm_comp_forall₂ hperm.symm htexts
    exact ⟨texts, texts', hperm'.symm, fromUTF8?_eq.mpr (encode_closed.mpr ⟨texts, htexts, rfl⟩),
      fromUTF8?_eq.mpr (encode_closed.mpr ⟨texts', htexts', rfl⟩)⟩
  cases hfirst : String.fromUTF8? (closed 10 pieces).toByteArray with
  | some s => exact .inl (hfirst ▸ hsome h hfirst)
  | none =>
      refine .inr ⟨rfl, ?_⟩
      cases hsecond : String.fromUTF8? (closed 10 pieces').toByteArray with
      | none => rfl
      | some s =>
          obtain ⟨_, _, -, -, hback⟩ := hsome h.symm hsecond
          cases hfirst.symm.trans hback

end Utf8
end Python
end PickleInfra
