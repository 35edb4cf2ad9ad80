import Mathlib.Data.List.Nodup
import Mathlib.Data.List.Perm.Subperm
import StateSync.Connection.Name
import StateSync.Proofs.Text.Utf8

/-! Session names are made from valid user names, and differ from those that are taken. -/

namespace StateSync

theorem Username.ne_empty_of_valid {name : String} (h : Username.fault? name = none) : name ≠ "" := by
  rintro rfl
  cases h

/-- A valid user name begins with a character of names. -/
theorem Username.toList_of_valid {name : String} (h : fault? name = none) :
    ∃ c cs, name.toList = c :: cs ∧ isNameChar c = true := by
  unfold fault? at h
  split at h
  · cases h
  · rename_i hne
    split at h
    · cases h
    · split at h
      · rename_i hall
        cases hlist : name.toList with
        | nil => exact absurd (String.toList_eq_nil_iff.mp hlist) (by simpa using hne)
        | cons c cs =>
          rw [hlist, List.all_cons, Bool.and_eq_true] at hall
          exact ⟨c, cs, rfl, hall.1⟩
      · cases h

theorem Username.toNat_of_isNameChar {c : Char} (h : isNameChar c = true) : 48 ≤ c.toNat ∧ c.toNat ≤ 122 := by
  have hchar : isNameChar c = (decide (c.val ≥ 'A'.val ∧ c.val ≤ 'Z'.val) ||
    (decide (c.val ≥ 'a'.val) && decide (c.val ≤ 'z'.val)) ||
    (decide (c.val ≥ '0'.val) && decide (c.val ≤ '9'.val)) || decide (c = '_')) := rfl
  simp only [hchar, Bool.or_eq_true, Bool.and_eq_true, decide_eq_true_eq, UInt32.le_iff_toNat_le, ge_iff_le] at h
  rcases h with ((h | h) | h) | rfl
  · exact ⟨Nat.le_trans (by decide) h.1, Nat.le_trans h.2 (by decide)⟩
  · exact ⟨Nat.le_trans (by decide) h.1, Nat.le_trans h.2 (by decide)⟩
  · exact ⟨h.1, Nat.le_trans h.2 (by decide)⟩
  · decide

namespace SessionName
variable {requested name : String} {taken : List String} {n tries : Nat}

theorem numbered_ne_empty (requested : String) (n : Nat) : numbered requested n ≠ "" := by
  intro h
  have hlen := congrArg String.length h
  simp only [numbered, String.length_append] at hlen
  have hbar : "_".length = 1 := rfl
  have hnil : "".length = 0 := rfl
  omega

theorem numbered_injective (requested : String) : Function.Injective (numbered requested) := by
  intro m n h
  have hlist := congrArg String.toList h
  simp only [numbered, String.toList_append, List.append_cancel_left_eq] at hlist
  have hdigits : Nat.toDigits 10 m = Nat.toDigits 10 n := by
    simpa only [Nat.toString_eq_repr, Nat.toList_repr] using hlist
  have hvalue := congrArg (Nat.ofDigitChars 10 · 0) hdigits
  simpa using hvalue

/-- The number found is the first whose name is free. -/
theorem firstFree_eq_some (h : firstFree requested taken n tries = some name) :
    ∃ k, n ≤ k ∧ name = numbered requested k ∧ name ∉ taken ∧ ∀ j, n ≤ j → j < k → numbered requested j ∈ taken := by
  induction tries generalizing n with
  | zero => cases h
  | succ tries ih =>
    rw [firstFree] at h
    split at h
    · rename_i hn
      obtain ⟨k, hk, hname, hfree, hleast⟩ := ih h
      refine ⟨k, Nat.le_of_succ_le hk, hname, hfree, fun j hj hlt => ?_⟩
      rcases Nat.eq_or_lt_of_le hj with rfl | hj
      · exact hn
      · exact hleast j hj hlt
    · rename_i hn
      obtain rfl := Option.some.inj h
      exact ⟨n, Nat.le_refl n, rfl, hn, fun j hj hlt => absurd hlt (Nat.not_lt.mpr hj)⟩

theorem taken_of_firstFree (h : firstFree requested taken n tries = none) :
    ∀ k, n ≤ k → k < n + tries → numbered requested k ∈ taken := by
  induction tries generalizing n with
  | zero => exact fun k hk hlt => absurd hlt (Nat.not_lt.mpr hk)
  | succ tries ih =>
    rw [firstFree] at h
    split at h
    · rename_i hn
      intro k hk hlt
      rcases Nat.eq_or_lt_of_le hk with rfl | hk
      · exact hn
      · exact ih h k hk (by omega)
    · cases h

/-- Numbered names differ, so they are not all taken if there are more of them than names taken. -/
theorem firstFree_isSome (h : taken.length < tries) (requested : String) (n : Nat) :
    ∃ name, firstFree requested taken n tries = some name := by
  cases hfree : firstFree requested taken n tries with
  | some name => exact ⟨name, rfl⟩
  | none =>
    let names := (List.range' n tries).map (numbered requested)
    have hnodup : names.Nodup := List.Nodup.map (numbered_injective requested) List.nodup_range'
    have hsub : names ⊆ taken := by
      intro name hname
      obtain ⟨k, hk, rfl⟩ := List.mem_map.mp hname
      obtain ⟨hle, hlt⟩ := List.mem_range'_1.mp hk
      exact taken_of_firstFree hfree k hle hlt
    have hle := (List.subperm_of_subset hnodup hsub).length_le
    rw [List.length_map, List.length_range'] at hle
    exact absurd h (Nat.not_lt.mpr hle)

/-- A session name is the requested name if that is free, and else the first numbered one that is. -/
theorem resolve_cases (requested : String) (taken : List String) :
    (requested ∉ taken ∧ resolve requested taken = requested) ∨
    (requested ∈ taken ∧ ∃ k, 2 ≤ k ∧ resolve requested taken = numbered requested k ∧ numbered requested k ∉ taken ∧
      ∀ j, 2 ≤ j → j < k → numbered requested j ∈ taken) := by
  unfold resolve
  split
  · rename_i htaken
    obtain ⟨name, hfree⟩ := firstFree_isSome (Nat.lt_succ_self taken.length) requested 2
    obtain ⟨k, hk, rfl, hnot, hleast⟩ := firstFree_eq_some hfree
    rw [hfree]
    exact Or.inr ⟨htaken, k, hk, rfl, hnot, hleast⟩
  · rename_i hfree
    exact Or.inl ⟨hfree, rfl⟩

theorem resolve_not_mem (requested : String) (taken : List String) : resolve requested taken ∉ taken := by
  rcases resolve_cases requested taken with ⟨hfree, heq⟩ | ⟨-, k, -, heq, hfree, -⟩
  · rwa [heq]
  · rwa [heq]

/-- A session name is not empty, as the user name it is made from is not. -/
theorem resolve_ne_empty (h : requested ≠ "") (taken : List String) : resolve requested taken ≠ "" := by
  rcases resolve_cases requested taken with ⟨-, heq⟩ | ⟨-, k, -, heq, -⟩
  · rwa [heq]
  · rw [heq]
    exact numbered_ne_empty requested k

/-- The bytes of a session name begin with one that stands for a character of names. -/
theorem toUTF8_resolve (h : Username.fault? requested = none) (taken : List String) :
    ∃ b bs, (resolve requested taken).toUTF8.toList = b :: bs ∧ 48 ≤ b.toNat := by
  obtain ⟨c, cs, hlist, hchar⟩ := Username.toList_of_valid h
  obtain ⟨hge, hle⟩ := Username.toNat_of_isNameChar hchar
  have hresolved : ∃ cs', (resolve requested taken).toList = c :: cs' := by
    rcases resolve_cases requested taken with ⟨-, heq⟩ | ⟨-, k, -, heq, -⟩
    · exact ⟨cs, (congrArg String.toList heq).trans hlist⟩
    · refine ⟨cs ++ "_".toList ++ (toString k).toList, ?_⟩
      rw [heq, numbered, String.toList_append, String.toList_append, hlist, List.cons_append, List.cons_append]
  obtain ⟨cs', hcs'⟩ := hresolved
  refine ⟨_, _, by rw [Text.toUTF8_eq_flatMap, hcs', List.flatMap_cons, Text.encode_ascii (by omega)]; rfl, ?_⟩
  rw [UInt8.toNat_ofNat', Nat.mod_eq_of_lt (by omega)]
  exact hge

end SessionName
end StateSync
