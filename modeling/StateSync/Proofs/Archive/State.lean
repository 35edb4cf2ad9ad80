import StateSync.Proofs.Archive.Table

/-! Game states are read back from their archives, level by level: bytes, the components of an entity, the entities
    of a state. With the other two kinds of archive it follows that every message between the two ends arrives as it
    was sent (`wire_roundTrip`). -/

namespace StateSync

namespace Archive
variable {bs : Bytes} {p q : Nat}

/-! ### Bytes and words -/

theorem bytesCodec : Codec writeBytes readBytes 8 (fun _ => True) where
  length_record p x q := by
    simp only [writeBytes, List.length_append, length_pointer, length_leBytes]
  read_write {bs p q x w} _ hbs hown hrec hp hq hlo hhi := by
    simp only [writeBytes] at hown hrec hhi ⊢
    have hend := hown.le hp
    have hrecEnd := hrec.le hq
    simp only [List.length_append, length_pointer, length_leBytes] at hrecEnd
    have hnumber := hrec.right
    rw [length_pointer] at hnumber
    have hlength : x.length < 0x100000000 := by omega
    have hcount := numberAt_leBytes hnumber hlength
    have htarget := targetAt_pointer hrec.left (by omega) (by omega)
    refine ⟨p + x.length, ?_, Nat.le_refl _⟩
    rw [readBytes]
    simp only [hcount, htarget]
    rw [enter_eq hlo hhi (Nat.mod_one p)]
    simp only
    rw [hown]

theorem wordAt_leBytes {n : UInt32} (h : Stands bs p (leBytes 4 n.toNat)) : wordAt bs p = n := by
  rw [wordAt, numberAt_leBytes h n.toNat_lt, UInt32.ofNat_toNat]

theorem wordCodec : Codec (fun _ (n : UInt32) => writeNumber 4 n.toNat) readWord 4 (fun _ => True) where
  length_record _ _ _ := length_leBytes _ _
  read_write {bs p q x w} _ _ _ hrec _ _ hlo _ := by
    refine ⟨w.lo, ?_, hlo⟩
    rw [readWord, wordAt_leBytes hrec]

/-! ### The levels of a state -/

theorem componentCodec : Codec writeComponent readComponent 12 (fun _ => True) where
  length_record p c q := by
    simp only [writeComponent, List.length_append, length_leBytes, bytesCodec.length_record]
    rfl
  read_write {bs p q c w} _ hbs hown hrec hp hq hlo hhi := by
    simp only [writeComponent] at hown hrec hhi ⊢
    have hq' := hrec.left.le hq
    obtain ⟨lo, hread, hlo'⟩ := bytesCodec.read_write trivial hbs hown hrec.right hp hq' hlo hhi
    have hread' : readBytes bs (q + 4) w = .ok (c.data, ⟨lo, w.hi⟩) := hread
    have hid := numberAt_leBytes hrec.left.left c.netId.toNat_lt
    refine ⟨lo, ?_, hlo'⟩
    rw [readComponent, hread', hid, UInt16.ofNat_toNat]

theorem componentsCodec : Codec (writeList writeComponent 12 4) (readList readComponent 12 4) 8
    (fun cs => ∀ c ∈ cs, True) := componentCodec.list (by decide) (by decide)

theorem entityCodec : Codec writeEntity readEntity 12 (fun _ => True) where
  length_record p e q := by
    simp only [writeEntity, List.length_append, length_leBytes, componentsCodec.length_record]
  read_write {bs p q e w} _ hbs hown hrec hp hq hlo hhi := by
    simp only [writeEntity] at hown hrec hhi ⊢
    have hq' := hrec.left.le hq
    have hright := hrec.right
    rw [length_leBytes] at hq' hright
    obtain ⟨lo, hread, hlo'⟩ := componentsCodec.read_write (fun _ _ => trivial) hbs hown hright hp hq' hlo hhi
    refine ⟨lo, ?_, hlo'⟩
    rw [readEntity, hread, wordAt_leBytes hrec.left]

theorem entitiesCodec : Codec (writeList writeEntity 12 4) (readList readEntity 12 4) 8 (fun es => ∀ e ∈ es, True) :=
  entityCodec.list (by decide) (by decide)

theorem deletionsCodec : Codec (writeList (fun _ (n : UInt32) => writeNumber 4 n.toNat) 4 4) (readList readWord 4 4) 8
    (fun ns => ∀ n ∈ ns, True) := wordCodec.list (by decide) (by decide)

theorem readFlag_eq {flag : Bool} {rest : Bytes} (h : Stands bs p ((if flag then 1 else 0) :: rest)) (w : Window) :
    readFlag bs p w = .ok (flag, w) := by
  have hboth : Stands bs p ([if flag then 1 else 0] ++ rest) := h
  have hfirst := hboth.left
  rw [Stands, List.length_singleton] at hfirst
  rw [readFlag, numberAt, hfirst]
  cases flag <;> rfl

theorem stateCodec : Codec writeState readState 32 (fun _ => True) where
  length_record p s q := by
    simp only [writeState, List.length_append, length_leBytes, entitiesCodec.length_record,
      deletionsCodec.length_record]
    rfl
  read_write {bs p q s w} _ hbs hown hrec hp hq hlo hhi := by
    simp only [writeState, List.length_append] at hown hrec hhi ⊢
    -- The record, from its end to its beginning: the flag, the two lists, the three ticks.
    have hlists := hrec.left
    have hdeletions := hlists.right
    have hentities := hlists.left.right
    have hticks := hlists.left.left
    have hrecEnd := hlists.le hq
    have hflag := hrec.right
    simp only [List.length_append, length_leBytes, entitiesCodec.length_record, deletionsCodec.length_record]
      at hdeletions hentities hrecEnd hflag
    obtain ⟨lo, hread, hlo'⟩ := entitiesCodec.read_write (fun _ _ => trivial) hbs hown.left hentities hp (by omega) hlo
      (by omega)
    obtain ⟨lo', hread', hlo''⟩ := deletionsCodec.read_write (w := ⟨lo, w.hi⟩) (fun _ _ => trivial) hbs hown.right
      hdeletions (hown.left.le hp) (by omega) hlo' (by simp only; omega)
    have hfrom := wordAt_leBytes hticks.left.left
    have hto := wordAt_leBytes hticks.left.right
    have hack := wordAt_leBytes hticks.right
    simp only [List.length_append, length_leBytes] at hto hack
    refine ⟨lo', ?_, by omega⟩
    rw [readState, hread]
    simp only
    rw [hread']
    simp only
    rw [readFlag_eq hflag, hfrom, hto, hack]

/-! ### Whole archives -/

theorem decodeState_encodeState {s : GameState} (hlen : (encodeState s).length < 0x80000000) :
    decodeState (encodeState s) = .ok s :=
  stateCodec.readRoot_finish trivial hlen

theorem decodeTick_encodeTick (tick : UInt32) : decodeTick (encodeTick tick) = .ok tick := by
  have hlen : (encodeTick tick).length = 4 := by simp [encodeTick, finish, writeNumber, padding]
  exact wordCodec.readRoot_finish trivial (Nat.lt_of_le_of_lt (Nat.le_of_eq hlen) (by decide))

end Archive

/-! ### Messages on the wire -/

namespace MessageType

theorem state_roundTrips : state.RoundTrips := by
  intro s bs h
  have h' : checkedLength [] (Archive.encodeState s) = .ok bs := h
  unfold checkedLength at h'
  split at h'
  · rename_i hbounds
    obtain rfl := Except.ok.inj h'
    show archived (Archive.decodeState _) = _
    rw [Archive.decodeState_encodeState hbounds.1]
    rfl
  · cases h'

theorem stateAck_roundTrips : stateAck.RoundTrips := by
  intro tick bs h
  obtain rfl := Except.ok.inj h
  show archived (Archive.decodeTick (Archive.encodeTick tick)) = _
  rw [Archive.decodeTick_encodeTick tick]
  rfl

/-- A message can be sent in a frame under `id`, and who takes the frame apart has the id and the message. -/
def Arrives {α : Type} (t : MessageType α) (id : UInt8) (x : α) : Prop :=
  ∃ payload, t.encode x = .ok payload ∧
    ∃ received, Frame.split? (Frame.encode id payload) = .ok (id, received) ∧ t.decode received = .ok x

theorem Arrives.of_decode {α : Type} {t : MessageType α} {id : UInt8} {x : α} {payload : Bytes}
    (he : t.encode x = .ok payload) (hd : t.decode payload = .ok x) : t.Arrives id x :=
  ⟨payload, he, payload, Frame.split?_encode id payload, hd⟩

theorem checkedLength_eq {texts : List String} {archive : Bytes} (hlen : archive.length < 0x80000000)
    (htexts : ∀ s ∈ texts, s.utf8ByteSize < 0x40000000) : checkedLength texts archive = .ok archive :=
  if_pos ⟨hlen, htexts⟩

/-- Under every id, every snapshot whose archive has less than 2³¹ bytes, every acknowledgement, and every name table
    that keeps this limit and has no name of 2³⁰ bytes or more arrives as it was sent. -/
theorem wire_roundTrip (id : UInt8) :
    (∀ s : GameState, (Archive.encodeState s).length < 0x80000000 → state.Arrives id s) ∧
    (∀ tick : UInt32, stateAck.Arrives id tick) ∧
    ∀ es : List TableEntry, (Archive.encodeEntries es).length < 0x80000000 →
      (∀ e ∈ es, e.name.utf8ByteSize < 0x40000000) → stringTable.Arrives id es := by
  refine ⟨fun s hlen => ?_, fun tick => ?_, fun es hlen hnames => ?_⟩
  · refine .of_decode (checkedLength_eq hlen nofun) ?_
    show archived (Archive.decodeState (Archive.encodeState s)) = _
    rw [Archive.decodeState_encodeState hlen]
    rfl
  · refine .of_decode rfl ?_
    show archived (Archive.decodeTick (Archive.encodeTick tick)) = _
    rw [Archive.decodeTick_encodeTick tick]
    rfl
  · have htexts : ∀ s ∈ es.map (·.name), s.utf8ByteSize < 0x40000000 := by
      intro s hs
      obtain ⟨e, he, rfl⟩ := List.mem_map.mp hs
      exact hnames e he
    have he : stringTable.encode es = .ok (Archive.encodeEntries es) := checkedLength_eq hlen htexts
    exact .of_decode he (stringTable_decode_encode he)

/-- A delta with two entities, one of them without components, an empty component and a component of odd length. -/
def crowdedState : GameState where
  fromTick := 7
  toTick := 9
  commandAck := 0xffffffff
  entities := [⟨3, [⟨1, [0xff, 0x80, 0]⟩, ⟨0xffff, []⟩]⟩, ⟨0, []⟩]
  deletions := [5, 5]
  extrapolated := true

/-- A table with a name that stands in its record and one that stands outside. -/
def mixedTable : List TableEntry := [⟨255, "ä€😀"⟩, ⟨0, "MsgStringTableEntries"⟩]

theorem wire_roundTrip_mixed : (Archive.encodeState crowdedState).length < 0x80000000 ∧
    (Archive.encodeEntries mixedTable).length < 0x80000000 ∧ (∀ e ∈ mixedTable, e.name.utf8ByteSize < 0x40000000) ∧
    state.Arrives 200 crowdedState ∧ stringTable.Arrives 200 mixedTable := by
  have hstate : (Archive.encodeState crowdedState).length < 0x80000000 := by decide +kernel
  have htable : (Archive.encodeEntries mixedTable).length < 0x80000000 := by decide +kernel
  have hnames : ∀ e ∈ mixedTable, e.name.utf8ByteSize < 0x40000000 := by decide +kernel
  obtain ⟨hs, -, ht⟩ := wire_roundTrip 200
  exact ⟨hstate, htable, hnames, hs _ hstate, ht _ htable hnames⟩

end MessageType
end StateSync
