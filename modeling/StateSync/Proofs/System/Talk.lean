import StateSync.Manager.Handshake
import StateSync.Proofs.Transport.Mail

/-! How a server and a client stand to each other across one link (`Talk`): their connections, and what is on its way
    to either of them. When nothing is on its way, the handshake is over and they agree. -/

namespace StateSync

/-- A packet for a channel that carries no name table. -/
def Note.IsMessage (note : Note) : Prop := ∃ id payload, note = .frame (id :: payload) ∧ id ≠ StringTable.bootstrapId

/-- What is on its way to a server that has approved a connection, before anything that the client says. -/
inductive Heard : Phase → List Note → Prop
  | notYet : Heard .approved [.up]
  | up : Heard .awaitingUsername []

/-- What is on its way to a client that is not assigned a name yet, and what it has said. -/
inductive Spoken : Phase → List Note → List Note → Prop
  | notYet : Spoken .connecting [.up] []
  | username (bytes : Bytes) : Spoken .awaitingAssignedName [] [.frame bytes]

theorem Heard.cases {phase : Phase} {notes : List Note} (h : Heard phase notes) :
    (phase = .approved ∧ notes = [.up]) ∨ (phase = .awaitingUsername ∧ notes = []) := by
  cases h with
  | notYet => exact Or.inl ⟨rfl, rfl⟩
  | up => exact Or.inr ⟨rfl, rfl⟩

theorem Spoken.cases {phase : Phase} {notes said : List Note} (h : Spoken phase notes said) :
    (phase = .connecting ∧ notes = [.up] ∧ said = []) ∨
      ∃ bytes, phase = .awaitingAssignedName ∧ notes = [] ∧ said = [.frame bytes] := by
  cases h with
  | notYet => exact Or.inl ⟨rfl, rfl, rfl⟩
  | username bytes => exact Or.inr ⟨bytes, rfl, rfl, rfl⟩

theorem Spoken.not_silent {phase : Phase} : ¬ Spoken phase [] [] := by
  intro h
  cases h

/-- Of the name table and the messages that may overtake it, the next is the table or one of the messages. -/
theorem Note.next_cases {note table : Note} {notes messages : List Note}
    (perm : (note :: notes).Perm (table :: messages)) (all : ∀ x ∈ messages, x.IsMessage) :
    (note = table ∧ ∀ x ∈ notes, x.IsMessage) ∨
      (note.IsMessage ∧ ∃ rest, notes.Perm (table :: rest) ∧ ∀ x ∈ rest, x.IsMessage) := by
  obtain ⟨hmem, hrest⟩ := List.cons_perm_iff_perm_erase.mp perm
  by_cases heq : note = table
  · subst heq
    rw [List.erase_cons_head] at hrest
    exact Or.inl ⟨rfl, fun x hx => all x (hrest.mem_iff.mp hx)⟩
  · rw [List.erase_cons_tail (by simpa using fun h => heq h.symm)] at hrest
    refine Or.inr ⟨all note ((List.mem_cons.mp hmem).resolve_left heq), _, hrest, fun x hx => ?_⟩
    exact all x (List.mem_of_mem_erase hx)

/-- The connections at the two ends of a link, with the notes on their way to the server and to the client. The
    server's name table is `table`, and `own` is the client's. -/
inductive Talk (table own : StringTable) :
    LinkState → Option Connection → Option Connection → List Note → List Note → Prop
  | asked {c : Connection} (phase : c.phase = .connecting) (new : own = StringTable.create) :
      Talk table own .awaitingApproval none (some c) [.asks] []
  /-- The link is approved, and the server waits for the user name. -/
  | approved {s c : Connection} {h d n : List Note} (server : Heard s.phase h) (client : Spoken c.phase n d)
      (new : own = StringTable.create) : Talk table own .connected (some s) (some c) (h ++ d) n
  | named {s c : Connection} {name : String} (server : s.phase = .awaitingAck) (session : s.session = some name)
      (nonempty : name ≠ "") (client : c.phase = .awaitingAssignedName) (new : own = StringTable.create) :
      Talk table own .connected (some s) (some c) [] [.frame (Manager.textBytes name)]
  | acked {s c : Connection} (server : s.phase = .awaitingAck) (session : s.session = c.session)
      (client : c.phase = .connected) (new : own = StringTable.create) :
      Talk table own .connected (some s) (some c) [.frame (Manager.textBytes Manager.ackText)] []
  /-- The name table is on its way, and messages may overtake it. -/
  | settling {s c : Connection} {payload : Bytes} {notes messages : List Note} (server : s.phase = .connected)
      (session : s.session = c.session) (client : c.phase = .connected) (new : own = StringTable.create)
      (locked : table.locked = true) (encoded : MessageType.stringTable.encode table.entries = .ok payload)
      (perm : notes.Perm (.frame (Frame.encode StringTable.bootstrapId payload) :: messages))
      (all : ∀ note ∈ messages, note.IsMessage) :
      Talk table own .connected (some s) (some c) [] notes
  | settled {s c : Connection} {up down : List Note} (server : s.phase = .connected) (session : s.session = c.session)
      (client : c.phase = .connected) (names : own.names = table.names) (locked : table.locked = true)
      (frames : ∀ note ∈ up, note.isStatus = false) (all : ∀ note ∈ down, note.IsMessage) :
      Talk table own .connected (some s) (some c) up down

namespace Talk
variable {table table' own : StringTable} {st : LinkState} {s c : Option Connection} {up down : List Note}

/-- A table that changes only before it is locked is the same to every talk that has come to it. -/
theorem retable (h : Talk table own st s c up down) (ht : table.locked = true → table' = table) :
    Talk table' own st s c up down := by
  cases h with
  | asked phase new => exact .asked phase new
  | approved server client new => exact .approved server client new
  | named server session nonempty client new => exact .named server session nonempty client new
  | acked server session client new => exact .acked server session client new
  | settling server session client new locked encoded perm all =>
    obtain rfl := ht locked
    exact .settling server session client new locked encoded perm all
  | settled server session client names locked frames all =>
    obtain rfl := ht locked
    exact .settled server session client names locked frames all

theorem client_some (h : Talk table own st s c up down) : ∃ x, c = some x := by
  cases h <;> exact ⟨_, rfl⟩

/-- With nothing on its way the handshake is over, and both sides have the same. -/
theorem agreed (h : Talk table own st s c [] []) :
    ∃ s' c', s = some s' ∧ c = some c' ∧ st = .connected ∧ s'.phase = .connected ∧ c'.phase = .connected ∧
      s'.session = c'.session ∧ own.names = table.names := by
  generalize hup : ([] : List Note) = up at h
  generalize hdown : ([] : List Note) = down at h
  cases h with
  | approved server client new =>
    obtain ⟨rfl, rfl⟩ := List.append_eq_nil_iff.mp hup.symm
    subst hdown
    exact absurd client Spoken.not_silent
  | settling server session client new locked encoded perm all =>
    subst hdown
    cases List.nil_perm.mp perm
  | settled server session client names locked frames all =>
    exact ⟨_, _, rfl, rfl, rfl, server, client, session, names⟩

/-- A server that has a channel may send messages at any time. -/
theorem message_down {x : Connection} (h : Talk table own st (some x) c up down) (hx : x.phase = .connected)
    {note : Note} {notes : List Note} (hn : note.IsMessage) (hp : notes.Perm (note :: down)) :
    Talk table own st (some x) c up notes := by
  have hmem : ∀ {messages : List Note}, (∀ y ∈ messages, y.IsMessage) → ∀ y ∈ note :: messages, y.IsMessage := by
    intro messages hall y hy
    rcases List.mem_cons.mp hy with rfl | hy
    · exact hn
    · exact hall y hy
  cases h with
  | approved server client new =>
    rw [hx] at server
    cases server
  | named server session nonempty client new => cases hx.symm.trans server
  | acked server session client new => cases hx.symm.trans server
  | settling server session client new locked encoded perm all =>
    refine .settling server session client new locked encoded ?_ (hmem all)
    exact hp.trans ((perm.cons note).trans (List.Perm.swap _ _ _))
  | settled server session client names locked frames all =>
    exact .settled server session client names locked frames fun y hy => hmem all y (hp.mem_iff.mp hy)

/-- A client that has the server's name table may send packets at any time. -/
theorem packet_up (h : Talk table own st s c up down) (hown : own ≠ StringTable.create) {note : Note}
    {notes : List Note} (hn : note.isStatus = false) (hp : notes.Perm (note :: up)) :
    Talk table own st s c notes down := by
  cases h with
  | asked phase new => exact absurd new hown
  | approved server client new => exact absurd new hown
  | named server session nonempty client new => exact absurd new hown
  | acked server session client new => exact absurd new hown
  | settling server session client new locked encoded perm all => exact absurd new hown
  | settled server session client names locked frames all =>
    refine .settled server session client names locked (fun y hy => ?_) all
    rcases List.mem_cons.mp (hp.mem_iff.mp hy) with rfl | hy
    · exact hn
    · exact frames y hy

end Talk
end StateSync
