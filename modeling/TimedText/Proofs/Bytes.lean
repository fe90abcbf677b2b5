import Mathlib.Data.List.Basic
import TimedText.Disk.Basic

/-!
# Bytes of texts

The bytes of a text are those of its characters, one after another (`ofText_eq`). They are the
bytes of no other text (`fromUTF8?_eq_some_iff`), and a character of seven bits is a byte of its own
that is part of no other character (`mem_ofText_iff`).
-/

namespace TimedText.Bytes

theorem toList_loop (bs : ByteArray) (i : Nat) (done : List UInt8) :
    ByteArray.toList.loop bs i done = done.reverse ++ bs.data.toList.drop i := by
  fun_induction ByteArray.toList.loop bs i done with
  | case1 i done h ih =>
    have hi : i < bs.data.toList.length := by simpa using h
    rw [ih, List.drop_eq_getElem_cons hi]
    simp [ByteArray.get!, h]
  | case2 i done h =>
    rw [List.drop_eq_nil_of_le (by simpa using Nat.le_of_not_lt h), List.append_nil]

theorem toList_eq (bs : ByteArray) : bs.toList = bs.data.toList := by
  rw [ByteArray.toList, toList_loop]
  rfl

/-- The bytes of a text are the bytes of its characters. -/
theorem ofText_eq (s : String) : ofText s = s.toList.flatMap String.utf8EncodeChar := by
  rw [ofText, String.toUTF8, toList_eq, ← String.utf8Encode_toList, List.utf8Encode,
    List.toList_data_toByteArray]

theorem ofText_inj {s t : String} : ofText s = ofText t ↔ s = t := by
  rw [ofText, ofText, String.toUTF8, String.toUTF8, toList_eq, toList_eq, Array.toList_inj,
    ← ByteArray.ext_iff, String.toByteArray_inj]

/-- What is read from bytes is the text of which they are the bytes. -/
theorem fromUTF8?_eq_some_iff {data : Bytes} {text : String} :
    String.fromUTF8? (ByteArray.mk data.toArray) = some text ↔ data = ofText text := by
  have hbytes : data = ofText text ↔ ByteArray.mk data.toArray = text.toByteArray := by
    rw [ofText, String.toUTF8, toList_eq, ByteArray.ext_iff, ← Array.toList_inj]
  rw [hbytes]
  unfold String.fromUTF8?
  constructor
  · intro h
    split at h
    · cases h
      rfl
    · cases h
  · intro h
    have hvalid : (ByteArray.mk data.toArray).IsValidUTF8 := h ▸ text.isValidUTF8
    rw [dif_pos hvalid, Option.some.injEq, ← String.toByteArray_inj]
    exact h

theorem fromUTF8?_eq_none_iff {data : Bytes} :
    String.fromUTF8? (ByteArray.mk data.toArray) = none ↔ ∀ text, data ≠ ofText text := by
  rw [Option.eq_none_iff_forall_ne_some]
  exact forall_congr' fun text => not_congr fromUTF8?_eq_some_iff

/-- A byte of seven bits is the one byte of the character of its code, and part of no other. -/
theorem mem_utf8EncodeChar_iff {c : Char} {b : UInt8} (seven : b.toNat ≤ 127) :
    b ∈ String.utf8EncodeChar c ↔ c.toNat = b.toNat := by
  have hcode : c.val.toNat = c.toNat := rfl
  have hmod (n k : Nat) (hk : 128 ≤ k) (hk' : n + k < 256) : b ≠ UInt8.ofNat (n + k) := by
    rw [Ne, ← UInt8.toNat_inj, UInt8.toNat_ofNat']
    omega
  unfold String.utf8EncodeChar
  dsimp only
  rw [hcode]
  split
  · rw [List.mem_singleton, ← UInt8.toNat_inj, UInt8.toNat_ofNat']
    omega
  · -- the bytes of the others have their eighth bit set
    refine iff_of_false ?_ (by omega)
    split
    · simp only [List.mem_cons, List.not_mem_nil, or_false, not_or]
      exact ⟨hmod _ _ (by decide) (by omega), hmod _ _ (by decide) (by omega)⟩
    · split
      · simp only [List.mem_cons, List.not_mem_nil, or_false, not_or]
        exact ⟨hmod _ _ (by decide) (by omega), hmod _ _ (by decide) (by omega),
          hmod _ _ (by decide) (by omega)⟩
      · simp only [List.mem_cons, List.not_mem_nil, or_false, not_or]
        exact ⟨hmod _ _ (by decide) (by omega), hmod _ _ (by decide) (by omega),
          hmod _ _ (by decide) (by omega), hmod _ _ (by decide) (by omega)⟩

theorem mem_ofText_iff {s : String} {b : UInt8} (seven : b.toNat ≤ 127) :
    b ∈ ofText s ↔ ∃ c ∈ s.toList, c.toNat = b.toNat := by
  rw [ofText_eq, List.mem_flatMap]
  exact exists_congr fun c => and_congr_right fun _ => mem_utf8EncodeChar_iff seven

end TimedText.Bytes
