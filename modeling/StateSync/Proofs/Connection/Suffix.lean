import Mathlib.Algebra.Group.Nat.Defs
import Mathlib.Data.List.Dedup
import StateSync.Proofs.Connection.Name

/-! Names with a number behind them. The number stands there in decimal, and is the least that is free (`resolve_least`).
    Of the rules for user names a name made so can break only the one on its length (`Issued`). -/

namespace StateSync

namespace Username
variable {name : String} {c : Char}

theorem fault?_eq_none_iff :
    fault? name = none ↔ name ≠ "" ∧ name.length ≤ maxLength ∧ ∀ c ∈ name.toList, isNameChar c = true := by
  unfold fault?
  by_cases hempty : name.isEmpty = true
  · simp [String.isEmpty_iff.mp hempty]
  · have hne : name ≠ "" := fun h => hempty (String.isEmpty_iff.mpr h)
    rw [if_neg hempty]
    by_cases hlong : maxLength < name.length
    · simp [hlong, Nat.not_le.mpr hlong]
    · simp [hlong, Nat.not_lt.mp hlong, hne]

theorem isNameChar_of_isDigit (h : c.isDigit = true) : isNameChar c = true := by
  simp [isNameChar, Char.isAlphanum, h]

end Username

namespace SessionName
variable {requested name : String} {taken : List String} {n k tries limit : Nat}

/-! ### Numbers -/

/-- How a positive number is written. -/
structure IsDecimal (digits : List Char) (n : Nat) : Prop where
  isDigit : ∀ c ∈ digits, c.isDigit = true
  head_ne_zero : digits.head? ≠ some '0'
  value : Nat.ofDigitChars 10 digits 0 = n

theorem head?_toDigits_ne (h : n ≠ 0) : (Nat.toDigits 10 n).head? ≠ some '0' := by
  induction n using Nat.strongRecOn with
  | ind n ih =>
    rw [Nat.toDigits_eq_if (by decide)]
    split
    · rename_i hlt
      have hdigit : ∀ d < 10, d ≠ 0 → d.digitChar ≠ '0' := by decide
      exact fun heq => hdigit n hlt h (Option.some.inj heq)
    · rename_i hge
      rw [List.head?_append_of_ne_nil _ Nat.toDigits_ne_nil]
      exact ih (n / 10) (by omega) (by omega)

theorem isDecimal_toDigits (h : n ≠ 0) : IsDecimal (Nat.toDigits 10 n) n where
  isDigit _ hc := Nat.isDigit_of_mem_toDigits (by decide) (Nat.le_refl _) hc
  head_ne_zero := head?_toDigits_ne h
  value := Nat.ofDigitChars_ten_toDigits

theorem toList_numbered (requested : String) (n : Nat) :
    (numbered requested n).toList = requested.toList ++ '_' :: Nat.toDigits 10 n := by
  rw [numbered, String.toList_append, String.toList_append, Nat.toString_eq_repr, Nat.toList_repr, List.append_assoc]
  rfl

theorem length_numbered (requested : String) (n : Nat) :
    (numbered requested n).length = requested.length + 1 + (Nat.toDigits 10 n).length := by
  rw [← String.length_toList, toList_numbered, List.length_append, String.length_toList, List.length_cons]
  omega

theorem numbered_ne_self (requested : String) (n : Nat) : numbered requested n ≠ requested := by
  intro h
  have hlength := congrArg String.length h
  rw [length_numbered] at hlength
  omega

/-! ### The search -/

/-- There are no more numbers in use than names. -/
theorem le_of_taken (htaken : requested ∈ taken) (hall : ∀ j, 2 ≤ j → j < n → numbered requested j ∈ taken) :
    n ≤ taken.dedup.length + 1 := by
  let names := requested :: (List.range' 2 (n - 2)).map (numbered requested)
  have hnodup : names.Nodup := by
    refine List.nodup_cons.mpr ⟨fun hmem => ?_, List.Nodup.map (numbered_injective requested) List.nodup_range'⟩
    obtain ⟨j, -, hj⟩ := List.mem_map.mp hmem
    exact numbered_ne_self requested j hj
  have hsub : names ⊆ taken.dedup := by
    intro name hname
    rw [List.mem_dedup]
    rcases List.mem_cons.mp hname with rfl | hname
    · exact htaken
    · obtain ⟨j, hj, rfl⟩ := List.mem_map.mp hname
      obtain ⟨hge, hlt⟩ := List.mem_range'_1.mp hj
      exact hall j hge (by omega)
  have hle := (List.subperm_of_subset hnodup hsub).length_le
  rw [List.length_cons, List.length_map, List.length_range'] at hle
  omega

/-- A search that tries enough numbers finds the least that is free. -/
theorem firstFree_of_least (hfree : numbered requested k ∉ taken)
    (hall : ∀ j, n ≤ j → j < k → numbered requested j ∈ taken) (hle : n ≤ k) (hlt : k < n + tries) :
    firstFree requested taken n tries = some (numbered requested k) := by
  induction tries generalizing n with
  | zero => omega
  | succ tries ih =>
    rw [firstFree]
    rcases Nat.eq_or_lt_of_le hle with rfl | hlt'
    · exact if_neg hfree
    · rw [if_pos (hall n (Nat.le_refl n) hlt')]
      exact ih (fun j hj => hall j (Nat.le_of_succ_le hj)) hlt' (by omega)

/-- Of fewer than 2³¹ names: the session name is the requested name if that is free. If not, it is the requested name with
    the least number from two on that is free, and the search over all numbers of 32 bits finds it. It is not taken in
    either case. The number stands behind a bar, in decimal and without zeros in front. -/
theorem resolve_least (requested : String) (taken : List String) (hfew : taken.dedup.length < 2 ^ 31) :
    (requested ∉ taken → resolve requested taken = requested) ∧
    (requested ∈ taken → ∃ n, 2 ≤ n ∧ n ≤ 2 ^ 31 ∧ resolve requested taken = numbered requested n ∧
      numbered requested n ∉ taken ∧ (∀ j, 2 ≤ j → j < n → numbered requested j ∈ taken) ∧
      firstFree requested taken 2 (2 ^ 32 - 2) = some (resolve requested taken)) ∧
    resolve requested taken ∉ taken ∧
    ∀ n, 2 ≤ n → ∃ digits, IsDecimal digits n ∧ (numbered requested n).toList = requested.toList ++ '_' :: digits := by
  refine ⟨fun hfree => if_neg hfree, fun htaken => ?_, resolve_not_mem requested taken, fun n hn => ?_⟩
  · rcases resolve_cases requested taken with ⟨hfree, -⟩ | ⟨-, n, hn, heq, hfree, hall⟩
    · exact absurd htaken hfree
    · have hle := le_of_taken htaken hall
      refine ⟨n, hn, by omega, heq, hfree, hall, ?_⟩
      rw [heq]
      exact firstFree_of_least hfree hall hn (by omega)
  · exact ⟨Nat.toDigits 10 n, isDecimal_toDigits (by omega), toList_numbered requested n⟩

/-- A gap in the numbers is filled first. -/
theorem resolve_least_gap :
    let taken := ["alice", "alice_2", "alice_4"]
    taken.dedup.length < 2 ^ 31 ∧ "alice" ∈ taken ∧ resolve "alice" taken = "alice_3" ∧
      firstFree "alice" taken 2 (2 ^ 32 - 2) = some "alice_3" ∧ resolve "alice" taken ∉ taken := by
  intro taken
  have hfew : taken.dedup.length < 2 ^ 31 := by decide
  have htaken : "alice" ∈ taken := by decide
  obtain ⟨-, hnumbered, hnew, -⟩ := resolve_least "alice" taken hfew
  obtain ⟨n, hn, -, heq, hfree, hall, hsearch⟩ := hnumbered htaken
  obtain rfl : n = 3 := by
    rcases Nat.lt_trichotomy n 3 with hlt | heq | hgt
    · obtain rfl : n = 2 := by omega
      exact absurd (by decide) hfree
    · exact heq
    · exact absurd (hall 3 (by decide) hgt) (by decide)
  have hthree : numbered "alice" 3 = "alice_3" := by decide
  rw [heq, hthree] at hsearch
  exact ⟨hfew, htaken, heq.trans hthree, hsearch, hnew⟩

/-! ### What a session name looks like -/

/-- A valid user name, by itself or with a number of at most `limit` behind it. -/
inductive Issued (limit : Nat) : String → Prop
  | asked {requested : String} (valid : Username.IsValid requested) : Issued limit requested
  | numbered {requested : String} {n : Nat} (valid : Username.IsValid requested) (second : 2 ≤ n) (within : n ≤ limit) :
      Issued limit (numbered requested n)

theorem issued_resolve (hvalid : Username.IsValid requested) (hlimit : taken.length < limit) :
    Issued limit (resolve requested taken) := by
  rcases resolve_cases requested taken with ⟨-, heq⟩ | ⟨htaken, n, hn, heq, -, hall⟩
  · rw [heq]
    exact .asked hvalid
  · rw [heq]
    have hle := le_of_taken htaken hall
    have hdedup := (List.dedup_sublist taken).length_le
    exact .numbered hvalid hn (by omega)

namespace Issued

theorem mono (h : Issued limit name) (hle : limit ≤ k) : Issued k name := by
  cases h with
  | asked valid => exact .asked valid
  | numbered valid second within => exact .numbered valid second (Nat.le_trans within hle)

theorem isNameChar (h : Issued limit name) : ∀ c ∈ name.toList, Username.isNameChar c = true := by
  cases h with
  | asked valid => exact (Username.fault?_eq_none_iff.mp valid).2.2
  | @numbered requested n valid second within =>
    intro c hc
    rw [toList_numbered] at hc
    rcases List.mem_append.mp hc with hc | hc
    · exact (Username.fault?_eq_none_iff.mp valid).2.2 c hc
    · rcases List.mem_cons.mp hc with rfl | hc
      · decide
      · exact Username.isNameChar_of_isDigit (Nat.isDigit_of_mem_toDigits (by decide) (Nat.le_refl _) hc)

theorem ne_empty (h : Issued limit name) : name ≠ "" := by
  cases h with
  | asked valid => exact Username.ne_empty_of_valid valid
  | numbered => exact numbered_ne_empty _ _

/-- The length is all that can be wrong. -/
theorem isValid_iff (h : Issued limit name) : Username.IsValid name ↔ name.length ≤ Username.maxLength :=
  ⟨fun hvalid => (Username.fault?_eq_none_iff.mp hvalid).2.1,
    fun hle => Username.fault?_eq_none_iff.mpr ⟨h.ne_empty, hle, h.isNameChar⟩⟩

theorem length_le (h : Issued limit name) :
    name.length ≤ Username.maxLength + 1 + (Nat.toDigits 10 limit).length := by
  cases h with
  | asked valid =>
    have hle := (Username.fault?_eq_none_iff.mp valid).2.1
    omega
  | @numbered requested n valid second within =>
    have hle := (Username.fault?_eq_none_iff.mp valid).2.1
    have hpos : 0 < (Nat.toDigits 10 limit).length := Nat.length_toDigits_pos
    have hlimit := (Nat.length_toDigits_le_iff (by decide : 1 < 10) hpos).mp (Nat.le_refl _)
    have hdigits := (Nat.length_toDigits_le_iff (by decide : 1 < 10) hpos).mpr (Nat.lt_of_le_of_lt within hlimit)
    rw [length_numbered]
    omega

end Issued
end SessionName
end StateSync
