import StateSync.State.Basic

/-! The bytes of a text: they are read back as the text, none of them is 0xff, and the first of them is not one that
    continues a character. -/

namespace StateSync.Text

theorem toList_loop (b : ByteArray) (i : Nat) (r : List UInt8) :
    ByteArray.toList.loop b i r = r.reverse ++ b.data.toList.drop i := by
  rw [ByteArray.toList.loop]
  split
  · rename_i hi
    have hi' : i < b.data.toList.length := hi
    have hget : b.get! i = b.data.toList[i] := by
      simp [ByteArray.get!, getElem!_pos b.data i hi]
    rw [toList_loop b (i + 1), List.reverse_cons, List.append_assoc, hget, List.singleton_append,
      List.getElem_cons_drop]
  · rename_i hi
    rw [List.drop_eq_nil_of_le (Nat.not_lt.mp hi), List.append_nil]
termination_by b.size - i

theorem toList_eq (b : ByteArray) : b.toList = b.data.toList := by
  rw [ByteArray.toList, toList_loop]
  rfl

theorem fromUTF8?_toUTF8 (s : String) : String.fromUTF8? ⟨s.toUTF8.toList.toArray⟩ = some s := by
  have hbytes : (⟨s.toUTF8.toList.toArray⟩ : ByteArray) = s.toByteArray := by
    rw [toList_eq, Array.toArray_toList]
    rfl
  rw [hbytes, String.fromUTF8?, dif_pos s.isValidUTF8]
  rfl

theorem length_toUTF8 (s : String) : s.toUTF8.toList.length = s.utf8ByteSize := by
  rw [toList_eq]
  rfl

theorem toUTF8_eq_flatMap (s : String) : s.toUTF8.toList = s.toList.flatMap String.utf8EncodeChar := by
  have henc : s.toUTF8 = s.toList.utf8Encode := String.utf8Encode_toList.symm
  rw [henc, toList_eq, List.utf8Encode, List.toList_data_toByteArray]

theorem lt_of_mem_encode {c : Char} {b : UInt8} (h : b ∈ String.utf8EncodeChar c) : b.toNat < 0xf8 := by
  unfold String.utf8EncodeChar at h
  simp only at h
  split at h
  · simp only [List.mem_singleton] at h
    subst h
    simp only [UInt8.toNat_ofNat']
    omega
  · split at h
    · simp only [List.mem_cons, List.not_mem_nil, or_false] at h
      rcases h with rfl | rfl <;> simp only [UInt8.toNat_ofNat'] <;> omega
    · split at h
      · simp only [List.mem_cons, List.not_mem_nil, or_false] at h
        rcases h with rfl | rfl | rfl <;> simp only [UInt8.toNat_ofNat'] <;> omega
      · simp only [List.mem_cons, List.not_mem_nil, or_false] at h
        rcases h with rfl | rfl | rfl | rfl <;> simp only [UInt8.toNat_ofNat'] <;> omega

/-- A character begins with a byte that says how many others follow. -/
theorem head?_encode (c : Char) : ∃ b bs, String.utf8EncodeChar c = b :: bs ∧ b.toNat / 64 ≠ 2 := by
  unfold String.utf8EncodeChar
  simp only
  split
  · refine ⟨_, _, rfl, ?_⟩
    simp only [UInt8.toNat_ofNat']
    omega
  · split
    · refine ⟨_, _, rfl, ?_⟩
      simp only [UInt8.toNat_ofNat']
      omega
    · split
      · refine ⟨_, _, rfl, ?_⟩
        simp only [UInt8.toNat_ofNat']
        omega
      · refine ⟨_, _, rfl, ?_⟩
        simp only [UInt8.toNat_ofNat']
        omega

theorem encode_ascii {c : Char} (h : c.toNat < 128) : String.utf8EncodeChar c = [UInt8.ofNat c.toNat] := by
  unfold String.utf8EncodeChar
  simp only
  exact if_pos (Nat.le_of_lt_succ h)

theorem ne_ff_of_mem {s : String} {b : UInt8} (h : b ∈ s.toUTF8.toList) : b ≠ 0xff := by
  rw [toUTF8_eq_flatMap] at h
  obtain ⟨c, -, hb⟩ := List.mem_flatMap.mp h
  rintro rfl
  exact absurd (lt_of_mem_encode hb) (by decide)

theorem head?_toUTF8 {s : String} {b : UInt8} (h : s.toUTF8.toList.head? = some b) : b.toNat / 64 ≠ 2 := by
  rw [toUTF8_eq_flatMap] at h
  cases hs : s.toList with
  | nil =>
    rw [hs] at h
    cases h
  | cons c cs =>
    obtain ⟨x, xs, hc, hx⟩ := head?_encode c
    rw [hs, List.flatMap_cons, hc] at h
    obtain rfl := Option.some.inj h
    exact hx

end StateSync.Text
