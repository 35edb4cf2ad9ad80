import StateSync.Message.Kinds
import StateSync.Proofs.Archive.Codec
import StateSync.Proofs.Text.Utf8

/-! Texts and name tables are read back from their archives. A short text stands in its record, filled up with a
    byte that occurs in no text; the record of a long one begins with a mark that no text begins with. -/

namespace StateSync

namespace Archive

theorem textOf_toUTF8 (s : String) : textOf s.toUTF8.toList = .ok s := by
  rw [textOf, Text.fromUTF8?_toUTF8]

theorem takeWhile_filled {bs : Bytes} (h : ∀ b ∈ bs, b ≠ 0xff) (n : Nat) :
    (bs ++ List.replicate n 0xff).takeWhile (· ≠ 0xff) = bs := by
  rw [List.takeWhile_append_of_pos fun b hb => decide_eq_true (h b hb)]
  cases n with
  | zero => exact List.append_nil bs
  | succ n => simp [List.replicate_succ]

theorem head?_filled (s : String) (n : Nat) :
    (s.toUTF8.toList ++ List.replicate n 0xff).head?.any (fun b : UInt8 => b.toNat / 64 = 2) = false := by
  cases hs : s.toUTF8.toList with
  | nil =>
    cases n with
    | zero => rfl
    | succ n => rfl
  | cons b bs =>
    have hb := Text.head?_toUTF8 (s := s) (b := b) (by rw [hs]; rfl)
    simp [hb]

theorem textLength_eq {n : Nat} (hn : n < 0x40000000) :
    (leBytes 4 (textLength n)).head?.any (·.toNat / 64 = 2) = true ∧
      ofLeBytes (leBytes 4 (textLength n)) = textLength n ∧ textLength n % 64 + textLength n / 256 * 64 = n := by
  have hfull : textLength n < 0x100000000 := by
    unfold textLength
    omega
  refine ⟨?_, by rw [ofLeBytes_leBytes, Nat.mod_eq_of_lt hfull], ?_⟩
  · have hfirst : textLength n % 256 / 64 = 2 := by
      unfold textLength
      omega
    simp [leBytes, hfirst]
  · unfold textLength
    omega

theorem textCodec : Codec writeText readText 8 (fun s => s.utf8ByteSize < 0x40000000) where
  length_record p s q := by
    unfold writeText
    dsimp only
    split
    · rename_i hle
      simp only [List.length_append, List.length_replicate, inlineLength] at hle ⊢
      omega
    · rw [List.length_append, length_leBytes, length_pointer]
  read_write {bs p q s w} hfits hbs hown hrec hp hq hlo hhi := by
    unfold writeText at hown hrec hhi ⊢
    dsimp only at hown hrec hhi ⊢
    by_cases hle : s.toUTF8.toList.length ≤ inlineLength
    · rw [if_pos hle] at hrec ⊢
      have hlen : (s.toUTF8.toList ++ List.replicate (inlineLength - s.toUTF8.toList.length) 0xff).length =
          inlineLength := by
        rw [List.length_append, List.length_replicate, Nat.add_sub_cancel' hle]
      rw [Stands, hlen] at hrec
      refine ⟨w.lo, ?_, hlo⟩
      rw [readText]
      dsimp only
      rw [hrec, head?_filled, if_neg Bool.false_ne_true, takeWhile_filled fun b => Text.ne_ff_of_mem, textOf_toUTF8]
    · rw [if_neg hle] at hown hrec hhi ⊢
      dsimp only at hown hrec hhi ⊢
      have hn : s.toUTF8.toList.length < 0x40000000 := by rwa [Text.length_toUTF8]
      obtain ⟨hmark, hlength, hcount⟩ := textLength_eq hn
      have hend := hown.le hp
      have hrecEnd := hrec.le hq
      have hslice : slice bs q inlineLength = leBytes 4 (textLength s.toUTF8.toList.length) ++ pointer q p := by
        rw [Stands, List.length_append, length_leBytes, length_pointer] at hrec
        exact hrec
      rw [List.length_append, length_leBytes, length_pointer] at hrecEnd
      have htake : (leBytes 4 (textLength s.toUTF8.toList.length) ++ pointer q p).take 4 =
          leBytes 4 (textLength s.toUTF8.toList.length) := by
        rw [List.take_left' (length_leBytes _ _)]
      have hdrop : (leBytes 4 (textLength s.toUTF8.toList.length) ++ pointer q p).drop 4 = pointer q p := by
        rw [List.drop_left' (length_leBytes _ _)]
      have htarget : (q : Int) + ofOffsetBytes (pointer q p) = p := by
        rw [pointer, ofOffsetBytes_offsetBytes (by omega) (by omega)]
        omega
      have hhead : (leBytes 4 (textLength s.toUTF8.toList.length) ++ pointer q p).head?.any (·.toNat / 64 = 2) = true :=
        hmark
      refine ⟨p + s.toUTF8.toList.length, ?_, Nat.le_refl _⟩
      rw [readText]
      dsimp only
      rw [hslice, hhead, if_pos rfl, htake, hdrop, hlength, hcount, if_neg hle, htarget,
        enter_eq hlo hhi (Nat.mod_one p)]
      dsimp only
      rw [hown, textOf_toUTF8]

theorem entryCodec : Codec writeEntry readEntry 12 (fun e => e.name.utf8ByteSize < 0x40000000) where
  length_record p e q := by
    simp only [writeEntry, List.length_append, textCodec.length_record]
    rfl
  read_write {bs p q e w} hfits hbs hown hrec hp hq hlo hhi := by
    unfold writeEntry at hown hrec hhi ⊢
    dsimp only at hown hrec hhi ⊢
    have hq' := hrec.left.le hq
    obtain ⟨lo, hread, hlo'⟩ := textCodec.read_write hfits hbs hown hrec.right hp hq' hlo hhi
    have hid : numberAt bs q 1 = e.id.toNat := by
      have hfirst : Stands bs q [e.id] := by
        have hline : Stands bs q ([e.id] ++ [0, 0, 0]) := hrec.left
        exact hline.left
      rw [Stands, List.length_singleton] at hfirst
      rw [numberAt, hfirst]
      exact Nat.add_zero _
    refine ⟨lo, ?_, hlo'⟩
    rw [readEntry]
    have hread' : readText bs (q + 4) w = .ok (e.name, ⟨lo, w.hi⟩) := hread
    rw [hread', hid, UInt8.ofNat_toNat]

theorem decodeEntries_encodeEntries {es : List TableEntry} (hes : ∀ e ∈ es, e.name.utf8ByteSize < 0x40000000)
    (hlen : (encodeEntries es).length < 0x80000000) : decodeEntries (encodeEntries es) = .ok es :=
  (entryCodec.list (by decide) (by decide)).readRoot_finish hes hlen

end Archive

theorem MessageType.stringTable_decode_encode {es : List TableEntry} {bs : Bytes}
    (h : MessageType.stringTable.encode es = .ok bs) : MessageType.stringTable.decode bs = .ok es := by
  have h' : checkedLength (es.map (·.name)) (Archive.encodeEntries es) = .ok bs := h
  unfold checkedLength at h'
  split at h'
  · rename_i hbounds
    obtain rfl := Except.ok.inj h'
    have hes : ∀ e ∈ es, e.name.utf8ByteSize < 0x40000000 := fun e he => hbounds.2 _ (List.mem_map_of_mem he)
    show archived (Archive.decodeEntries _) = _
    rw [Archive.decodeEntries_encodeEntries hes hbounds.1]
    rfl
  · cases h'

end StateSync
