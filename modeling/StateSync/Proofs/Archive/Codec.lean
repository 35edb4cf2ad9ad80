import StateSync.Archive.Reader
import StateSync.Archive.Writer

/-! Reading back what was written. `Codec` says of a writer and a reader of one kind of value that the reader, led
    to the record of a value in an archive, gives the value, and closes its window no further than what the value
    owns. It is kept by lists (`Codec.list`), and an archive of a value gives the value (`Codec.readRoot_finish`). -/

namespace StateSync.Archive
variable {bs part part' : Bytes} {p q n size align : Nat} {α : Type}

/-! ### Bytes at a position -/

/-- The bytes `part` stand in `bs` at the position `p`. -/
def Stands (bs : Bytes) (p : Nat) (part : Bytes) : Prop := slice bs p part.length = part

theorem Stands.left (h : Stands bs p (part ++ part')) : Stands bs p part := by
  have hcut := congrArg (List.take part.length) h
  rw [slice, List.take_take, List.take_left, List.length_append, Nat.min_eq_left (Nat.le_add_right _ _)] at hcut
  exact hcut

theorem Stands.right (h : Stands bs p (part ++ part')) : Stands bs (p + part.length) part' := by
  have hcut := congrArg (List.drop part.length) h
  rw [slice, List.drop_take, List.drop_drop, List.drop_left, List.length_append, Nat.add_sub_cancel_left] at hcut
  exact hcut

theorem Stands.le (h : Stands bs p part) (hp : p ≤ bs.length) : p + part.length ≤ bs.length := by
  have hlen := congrArg List.length h
  rw [slice, List.length_take, List.length_drop] at hlen
  omega

theorem stands_append (before part after : Bytes) : Stands (before ++ part ++ after) before.length part := by
  rw [Stands, slice, List.append_assoc, List.drop_left, List.take_left]

/-! ### Numbers and pointers -/

theorem numberAt_leBytes {width : Nat} (h : Stands bs p (leBytes width n)) (hn : n < Nat.pow 256 width) :
    numberAt bs p width = n := by
  rw [Stands, length_leBytes] at h
  rw [numberAt, h, ofLeBytes_leBytes, Nat.mod_eq_of_lt hn]

theorem length_pointer (pointerAt target : Nat) : (pointer pointerAt target).length = 4 := length_leBytes _ _

theorem targetAt_pointer {target : Nat} (h : Stands bs p (pointer p target)) (hp : p < 0x80000000)
    (ht : target < 0x80000000) : targetAt bs p = target := by
  rw [Stands, length_pointer] at h
  rw [targetAt, h, pointer, ofOffsetBytes_offsetBytes (by omega) (by omega)]
  omega

theorem padding_mod (hpos : 0 < align) (p : Nat) : (p + (padding align p).length) % align = 0 := by
  have hlt := Nat.mod_lt p hpos
  rw [padding, List.length_replicate, Nat.add_mod, Nat.mod_mod]
  by_cases hz : p % align = 0
  · rw [hz, Nat.sub_zero, Nat.mod_self, Nat.zero_add, Nat.zero_mod]
  · rw [Nat.mod_eq_of_lt (by omega : align - p % align < align), Nat.add_sub_cancel' (Nat.le_of_lt hlt), Nat.mod_self]

theorem enter_eq {w : Window} {size : Nat} (hlo : w.lo ≤ p) (hhi : p + size ≤ w.hi) (ha : p % align = 0) :
    w.enter p size align = .ok ⟨p, ⟨w.lo, p⟩, ⟨p + size, w.hi⟩⟩ := by
  unfold Window.enter
  rw [if_neg (by omega), if_neg (by simpa using ha)]
  rfl

/-! ### Codecs -/

/-- The reader is led to the record at `q` of a value whose own bytes stand at `p`, in a window that holds them. -/
structure Codec (write : Write α) (read : Read α) (size : Nat) (fits : α → Prop) : Prop where
  length_record : ∀ p x q, ((write p x).record q).length = size
  read_write : ∀ {bs p q x w}, fits x → bs.length < 0x80000000 → Stands bs p (write p x).owned →
    Stands bs q ((write p x).record q) → p ≤ bs.length → q ≤ bs.length → w.lo ≤ p →
    p + (write p x).owned.length ≤ w.hi →
    ∃ lo, read bs q w = .ok (x, ⟨lo, w.hi⟩) ∧ lo ≤ p + (write p x).owned.length

section
variable {write : Write α} {read : Read α} {fits : α → Prop}

theorem Codec.length_placeRecords (h : Codec write read size fits) (p r : Nat) (xs : List α) :
    (placeRecords size r (writeItems write p xs).2).length = xs.length * size := by
  induction xs generalizing p r with
  | nil => exact (Nat.zero_mul size).symm
  | cons x xs ih =>
    rw [writeItems, placeRecords, List.length_append, h.length_record, ih, List.length_cons, Nat.succ_mul, Nat.add_comm]

/-- Items whose own bytes stand one after another, and whose records do so elsewhere, are read in order. -/
theorem Codec.readItems (h : Codec write read size fits) (hbs : bs.length < 0x80000000) {xs : List α} {p r : Nat}
    {w : Window} (hfits : ∀ x ∈ xs, fits x) (hown : Stands bs p (writeItems write p xs).1)
    (hrec : Stands bs r (placeRecords size r (writeItems write p xs).2)) (hp : p ≤ bs.length) (hr : r ≤ bs.length)
    (hlo : w.lo ≤ p) (hhi : p + (writeItems write p xs).1.length ≤ w.hi) :
    ∃ lo, Archive.readItems read size bs xs.length r w = .ok (xs, ⟨lo, w.hi⟩) ∧
      lo ≤ p + (writeItems write p xs).1.length := by
  induction xs generalizing p r w with
  | nil => exact ⟨w.lo, rfl, hlo⟩
  | cons x xs ih =>
    rw [writeItems] at hown hrec hhi ⊢
    rw [placeRecords] at hrec
    simp only [List.length_append] at hhi ⊢
    have hown₁ := hown.left
    have hrec₂ := hrec.right
    rw [h.length_record] at hrec₂
    have hp₁ := hown₁.le hp
    have hr₁ := hrec.left.le hr
    rw [h.length_record] at hr₁
    obtain ⟨lo, hread, hlo₁⟩ := h.read_write (hfits x List.mem_cons_self) hbs hown₁ hrec.left hp hr hlo (by omega)
    obtain ⟨lo', hread', hlo'⟩ := ih (w := ⟨lo, w.hi⟩) (fun y hy => hfits y (List.mem_cons_of_mem _ hy))
      hown.right hrec₂ hp₁ hr₁ hlo₁ (by simp only; omega)
    refine ⟨lo', ?_, by omega⟩
    rw [List.length_cons, Archive.readItems, hread]
    simp only
    rw [hread']

theorem Codec.list (h : Codec write read size fits) (hsize : 0 < size) (halign : 0 < align) :
    Codec (writeList write size align) (readList read size align) 8 (fun xs => ∀ x ∈ xs, fits x) where
  length_record p xs q := by
    simp only [writeList, List.length_append, length_pointer, length_leBytes]
  read_write {bs p q xs w} hfits hbs hown hrec hp hq hlo hhi := by
    simp only [writeList] at hown hrec hhi ⊢
    have hitems := hown.left.left
    have hplaced := hown.right
    rw [List.length_append, ← Nat.add_assoc] at hplaced
    have hlen := h.length_placeRecords p
      (p + (writeItems write p xs).1.length + (padding align (p + (writeItems write p xs).1.length)).length) xs
    have hpad := padding_mod halign (p + (writeItems write p xs).1.length)
    have hend := hown.le hp
    have hrecEnd := hrec.le hq
    simp only [List.length_append, hlen, length_pointer, length_leBytes] at hhi hend hrecEnd ⊢
    generalize hstart : p + (writeItems write p xs).1.length +
      (padding align (p + (writeItems write p xs).1.length)).length = start at *
    have hcountLt : xs.length < 0x100000000 := by
      have hle := Nat.le_mul_of_pos_right xs.length hsize
      omega
    have hnumber := hrec.right
    rw [length_pointer] at hnumber
    have hcount := numberAt_leBytes hnumber hcountLt
    have htarget := targetAt_pointer hrec.left (by omega) (by omega)
    obtain ⟨lo, hread, -⟩ := h.readItems (w := ⟨w.lo, start⟩) hbs hfits hitems hplaced hp (by omega) hlo (by
      simp only
      omega)
    refine ⟨start + xs.length * size, ?_, by omega⟩
    rw [readList]
    simp only [hcount, htarget]
    rw [enter_eq (by omega) (by omega) hpad]
    simp only
    rw [hread]

theorem Codec.readRoot_finish (h : Codec write read size fits) {x : α} (hx : fits x)
    (hlen : (finish (write 0 x)).length < 0x80000000) : readRoot read size (finish (write 0 x)) = .ok x := by
  have hpad := padding_mod (by decide : 0 < 4) (write 0 x).owned.length
  have hfinish : (finish (write 0 x)).length =
      (write 0 x).owned.length + (padding 4 (write 0 x).owned.length).length + size := by
    simp only [finish, List.length_append, h.length_record]
  generalize hroot : (write 0 x).owned.length + (padding 4 (write 0 x).owned.length).length = root at *
  have hown : Stands (finish (write 0 x)) 0 (write 0 x).owned := by
    rw [finish, List.append_assoc]
    exact stands_append [] _ _
  have hrec : Stands (finish (write 0 x)) root ((write 0 x).record root) := by
    have hall := stands_append ((write 0 x).owned ++ padding 4 (write 0 x).owned.length) ((write 0 x).record root) []
    rw [List.append_nil, List.length_append, hroot] at hall
    rw [finish, hroot]
    exact hall
  obtain ⟨lo, hread, -⟩ := h.read_write (w := ⟨0, root⟩) hx hlen hown hrec (Nat.zero_le _) (by omega) (Nat.zero_le _)
    (by simp only; omega)
  rw [readRoot, show (finish (write 0 x)).length - size = root by omega]
  rw [enter_eq (Nat.zero_le _) (by simp only; omega) hpad]
  simp only
  rw [hread]

end

end StateSync.Archive
