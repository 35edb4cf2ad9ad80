import StateSync.Manager.Open
import StateSync.Manager.Send
import StateSync.Proofs.Manager.Handling

/-! Any sequence of calls on a manager, over a medium that answers as it likes and that others change in between.
    The manager is sound after every event it handles, and no connection comes back to life (`run_sound`). -/

namespace StateSync.Manager
variable {μ ι δ : Type} [Medium μ ι] {m m' m'' : Manager ι δ} {w : μ} {id : ConnectionId} {i : Nat}

/-- Handles the next event of the transport in a place, if one is due. -/
def next (m : Manager ι δ) (w : μ) (i : Nat) : Manager ι δ × μ :=
  match m.transports[i]? with
  | none => (m, w)
  | some h =>
    match Medium.poll w h with
    | (none, w) => (m, w)
    | (some e, w) => m.handleEvent w i h e

inductive Call (μ ι δ : Type) : Type 1 where
  | start
  | connect (h : ι) (remote : Address) (username : String)
  | next (i : Nat)
  | process
  | disconnect (id : ConnectionId) (reason : String)
  | send {α : Type} (id : ConnectionId) (t : MessageType α) (x : α)
  | broadcast {α : Type} (t : MessageType α) (x : α)
  | shutdown (reason : String)
  | register {α : Type} (t : MessageType α) (receive : Option (α → δ))
  | setHook (h : ConnectHook)
  | changeSetting (key value : String)
  | takeEvents
  | takeReceived
  /-- Nothing is asked, but the medium gets into another state. -/
  | outside (w : μ)

def perform (s : Manager ι δ × μ) : Call μ ι δ → Manager ι δ × μ
  | .start => (s.1.start s.2).2
  | .connect h remote username => (s.1.connect s.2 h remote username).2
  | .next i => s.1.next s.2 i
  | .process => s.1.process s.2
  | .disconnect id reason => (s.1.disconnect s.2 id reason).2
  | .send id t x => (s.1, (s.1.send s.2 id t x).2)
  | .broadcast t x => (s.1, (s.1.broadcast s.2 t x).2)
  | .shutdown reason => s.1.shutdown s.2 reason
  | .register t receive => ((s.1.register t receive).toOption.getD s.1, s.2)
  | .setHook h => (s.1.setHook h, s.2)
  | .changeSetting key value => (s.1.changeSetting s.2 key value).2
  | .takeEvents => (s.1.takeEvents.2, s.2)
  | .takeReceived => (s.1.takeReceived.2, s.2)
  | .outside w => (s.1, w)

def run (s : Manager ι δ × μ) (calls : List (Call μ ι δ)) : Manager ι δ × μ := calls.foldl perform s

/-- A manager gets from one state to a sound one, on the same side and without a dead id coming to life. -/
structure Advances (m m' : Manager ι δ) : Prop where
  sound : m'.Sound
  ages : m.connections.Ages m'.connections
  side : m'.side = m.side

theorem Advances.refl (h : m.Sound) : Advances m m := ⟨h, .refl _, rfl⟩

theorem Advances.trans (h : Advances m m') (h' : Advances m' m'') : Advances m m'' :=
  ⟨h'.sound, h.ages.trans h'.ages, h'.side.trans h.side⟩

theorem Advances.isServer (h : Advances m m') : m'.isServer = m.isServer := by
  rw [Manager.isServer, h.side]
  rfl

theorem Advances.of_settles (h : m.Sound) (hs : Settles m m' id) : Advances m m' :=
  ⟨h.of_settles hs, hs.connections.ages, hs.side⟩

theorem Advances.of_eq (h : m.Sound) (hc : m'.connections = m.connections) (hp : m'.pending = m.pending)
    (hs : m'.side = m.side) (ht : m'.transports = m.transports) : Advances m m' :=
  ⟨fun id => (h id).of_eq hc hp hs ht, hc ▸ .refl _, hs⟩

/-- Without connections a manager is sound whatever its transports are. -/
theorem Advances.of_idle (h : m.Sound) (hnone : ∀ id, m.connections.get? id = none)
    (hc : m'.connections = m.connections) (hp : m'.pending = m.pending) (hs : m'.side = m.side) : Advances m m' := by
  refine ⟨fun id => .of_none (hc ▸ hnone id) (fun i p hf => ?_) ?_, hc ▸ .refl _, hs⟩
  · obtain ⟨c, hget, -⟩ := (h id).found (hc ▸ hf)
    exact (nomatch (hnone id).symm.trans hget)
  · rw [hp]
    cases hpend : m.pending.get? id with
    | none => rfl
    | some f =>
      obtain ⟨c, hget⟩ := (h id).awaited hpend
      exact (nomatch (hnone id).symm.trans hget)

theorem sound_create (side : Side) (settings : Settings) : (create side settings : Manager ι δ).Sound := fun _ =>
  .of_none rfl (fun _ _ h => (nomatch h)) rfl

/-! ### Events -/

theorem transports_next (h : m.Sound) (w : μ) (i : Nat) : (m.next w i).1.transports = m.transports := by
  unfold next
  split
  · rfl
  · rename_i hd hi
    split
    · rfl
    · rename_i e w₁ _
      obtain ⟨id, hid⟩ := handleEvent_handles h (List.getElem?_eq_some_iff.mp hi).1 w₁ hd e
      exact hid.transports

theorem next_advances (h : m.Sound) (w : μ) (i : Nat) : Advances m (m.next w i).1 := by
  unfold next
  split
  · exact .refl h
  · rename_i hd hi
    split
    · exact .refl h
    · rename_i e w₁ _
      obtain ⟨id, hid⟩ := handleEvent_handles h (List.getElem?_eq_some_iff.mp hi).1 w₁ hd e
      exact .of_settles h hid.toSettles

theorem run_append (s : Manager ι δ × μ) (calls later : List (Call μ ι δ)) :
    run s (calls ++ later) = run (run s calls) later := List.foldl_append

theorem drain_eq_run {h : ι} (hm : m.Sound) (hi : m.transports[i]? = some h) (w : μ) (most : Nat) :
    ∃ n, m.drain w i h most = run (m, w) (List.replicate n (.next i)) := by
  induction most generalizing m w with
  | zero => exact ⟨0, rfl⟩
  | succ most ih =>
    rcases hpoll : Medium.poll w h with ⟨_ | e, w₁⟩
    · refine ⟨1, ?_⟩
      simp only [drain, run, List.replicate, List.foldl, perform, next, hi, hpoll]
    · have hnext : m.next w i = m.handleEvent w₁ i h e := by simp only [next, hi, hpoll]
      have htrans := transports_next hm w i
      obtain ⟨n, hn⟩ := ih (next_advances hm w i).sound (htrans ▸ hi) (m.next w i).2
      refine ⟨n + 1, ?_⟩
      rw [List.replicate_succ, run, List.foldl_cons]
      simp only [drain, hpoll, perform]
      rw [← hnext, hn]
      rfl

theorem run_nexts (h : m.Sound) (w : μ) (places : List Nat) :
    let s := run (m, w) (places.map .next)
    Advances m s.1 ∧ s.1.transports = m.transports := by
  induction places generalizing m w with
  | nil => exact ⟨.refl h, rfl⟩
  | cons i places ih =>
    have hone := next_advances h w i
    obtain ⟨hadv, ht⟩ := ih hone.sound (m.next w i).2
    exact ⟨hone.trans hadv, ht.trans (transports_next h w i)⟩

theorem place_of_drop {h : ι} {hs : List ι} (hdrop : m.transports.drop i = h :: hs) :
    m.transports[i]? = some h ∧ m.transports.drop (i + 1) = hs := by
  refine ⟨?_, ?_⟩
  · rw [← List.head?_drop, hdrop]
    rfl
  · rw [← List.drop_drop, hdrop]
    rfl

theorem drainFrom_eq_run {hs : List ι} (hm : m.Sound) (hdrop : m.transports.drop i = hs) (w : μ) :
    ∃ places : List Nat, m.drainFrom w i hs = run (m, w) (places.map .next) := by
  induction hs generalizing m w i with
  | nil => exact ⟨[], rfl⟩
  | cons h hs ih =>
    obtain ⟨hi, htail⟩ := place_of_drop hdrop
    obtain ⟨n, hn⟩ := drain_eq_run hm hi w (Medium.backlog w h)
    obtain ⟨hadv, ht⟩ := run_nexts hm w (List.replicate n i)
    rw [List.map_replicate, ← hn] at hadv ht
    obtain ⟨places, hplaces⟩ := ih hadv.sound (ht ▸ htail) (m.drain w i h (Medium.backlog w h)).2
    refine ⟨List.replicate n i ++ places, ?_⟩
    rw [List.map_append, run_append, List.map_replicate, ← hn, drainFrom]
    exact hplaces

/-- Handling all events that are due is handling the next event of a transport a number of times. -/
theorem process_eq_run (h : m.Sound) (w : μ) : ∃ places : List Nat, m.process w = run (m, w) (places.map .next) :=
  drainFrom_eq_run h rfl w

/-- What is kept by handling the next event of any transport is kept by handling all that are due. -/
theorem process_induction {P : Manager ι δ → μ → Prop} (hm : m.Sound) {w : μ} (h : P m w)
    (hnext : ∀ {m' w'} i, m'.Sound → P m' w' → P (m'.next w' i).1 (m'.next w' i).2) :
    P (m.process w).1 (m.process w).2 := by
  obtain ⟨places, hplaces⟩ := process_eq_run hm w
  rw [hplaces]
  clear hplaces
  induction places generalizing m w with
  | nil => exact h
  | cons i places ih => exact ih (next_advances hm w i).sound (hnext i hm h)

theorem transports_process (h : m.Sound) (w : μ) : (m.process w).1.transports = m.transports := by
  obtain ⟨places, hplaces⟩ := process_eq_run h w
  rw [hplaces]
  exact (run_nexts h w places).2

/-! ### Calls -/

theorem Sound.get?_of_not_running (h : m.Sound) (hr : ¬ m.isRunning = true) (id : ConnectionId) :
    m.connections.get? id = none := by
  cases hc : m.connections.get? id with
  | none => rfl
  | some c =>
    have hlt := (h id).carried hc
    have hnil : m.transports = [] := by simpa [isRunning] using hr
    rw [hnil] at hlt
    exact absurd hlt (Nat.not_lt_zero _)

theorem Sound.get?_of_peerCount (h : m.Sound) (hp : ¬ 0 < m.connections.peerCount) (id : ConnectionId) :
    m.connections.get? id = none := by
  cases hc : m.connections.get? id with
  | none => rfl
  | some c =>
    have hentry := (h id).entered hc
    have hnil : m.connections.byPeer.entries = [] := List.eq_nil_of_length_eq_zero (Nat.eq_zero_of_not_pos hp)
    rw [ConnectionTable.find?, Assoc.get?, hnil] at hentry
    cases hentry

theorem start_advances (h : m.Sound) (w : μ) : Advances m (m.start w).2.1 := by
  unfold start
  split
  · exact .refl h
  · split
    · exact .refl h
    · rename_i hrun
      split
      · exact .refl h
      · split
        · exact .refl h
        · exact .of_idle h (h.get?_of_not_running hrun) rfl rfl rfl

/-- The manager that `connect` enters the connection in. -/
def freshClient (m : Manager ι δ) (h : ι) (username : String) : Manager ι δ :=
  { m with transports := [h], strings := StringTable.create, username := username }

/-- The manager of a client that waits for the connection it has asked for. -/
def dialing (m : Manager ι δ) (h : ι) (username : String) (peer : Peer) (remote : Address) : Manager ι δ :=
  { m.freshClient h username with connections := (m.connections.insert 0 peer remote .connecting).2 }

theorem get?_dialing {m : Manager ι δ} (hnone : ∀ id, m.connections.get? id = none) {h : ι} {username : String}
    {peer : Peer} {remote : Address} {id : ConnectionId} {c : Connection} :
    (m.dialing h username peer remote).connections.get? id = some c ↔
      m.connections.nextId = id ∧ ⟨m.connections.nextId, 0, peer, remote, .connecting, none, none⟩ = c := by
  rw [dialing, ConnectionTable.get?_insert, hnone]
  split
  · rename_i hid
    simp [hid]
  · rename_i hid
    simp [hid]

theorem dialing_advances (hm : m.Sound) (hs : m.isServer = false) (hnone : ∀ id, m.connections.get? id = none) (h : ι)
    (username : String) (peer : Peer) (remote : Address) : Advances m (m.dialing h username peer remote) := by
  have hfresh : Advances m (m.freshClient h username) := .of_idle hm hnone rfl rfl rfl
  have hfind : (m.freshClient h username).connections.find? 0 peer = none := by
    cases hf : m.connections.find? 0 peer with
    | none => exact hf
    | some id =>
      obtain ⟨c, hc, -⟩ := (hm id).found hf
      exact (nomatch (hnone id).symm.trans hc)
  obtain ⟨ht, hw, hc, hpend⟩ := hfresh.sound.enter Nat.zero_lt_one hfind remote .connecting
  have hside : (m.freshClient h username).side = .client := side_eq_client hs
  refine hfresh.trans (.of_settles hfresh.sound ⟨ht, hw.soundAt hc ?_⟩)
  simp only [Connection.InPhase, hside, hpend]
  exact ⟨trivial, trivial, trivial⟩

theorem connect_advances (h : m.Sound) (w : μ) (hd : ι) (remote : Address) (username : String) :
    Advances m (m.connect w hd remote username).2.1 := by
  unfold connect
  split
  · exact .refl h
  · rename_i hs
    split
    · exact .refl h
    · rename_i hp
      split
      · exact .refl h
      · exact dialing_advances h (eq_false_of_ne_true hs) (h.get?_of_peerCount hp) hd username _ remote

theorem disconnect_advances (h : m.Sound) (w : μ) (id : ConnectionId) (reason : String) :
    Advances m (m.disconnect w id reason).2.1 := by
  unfold disconnect
  split
  · exact .of_settles h ((h id).toWired.teardown reason)
  · exact .refl h

theorem teardownAll_advances (h : m.Sound) (ids : List ConnectionId) (reason : String) :
    let m' := ids.foldl (fun m id => m.teardown id reason) m
    Advances m m' ∧ ∀ j, m'.connections.get? j = if j ∈ ids then none else m.connections.get? j := by
  induction ids generalizing m with
  | nil => exact ⟨.refl h, fun j => by simp⟩
  | cons id ids ih =>
    have hone : Advances m (m.teardown id reason) := .of_settles h ((h id).toWired.teardown reason)
    obtain ⟨hadv, hget⟩ := ih hone.sound
    refine ⟨hone.trans hadv, fun j => ?_⟩
    rw [List.foldl_cons, hget j, get?_teardown]
    by_cases hj : id = j
    · subst hj
      simp
    · have hj' : ¬ j = id := fun h => hj h.symm
      by_cases hmem : j ∈ ids <;> simp [hj, hj', hmem]

theorem shutdown_advances (h : m.Sound) (w : μ) (reason : String) : Advances m (m.shutdown w reason).1 := by
  unfold shutdown
  split
  · exact .refl h
  · obtain ⟨hadv, hget⟩ := teardownAll_advances h (m.connections.live.map (·.id)) reason
    refine hadv.trans (.of_idle hadv.sound (fun j => ?_) rfl rfl rfl)
    rw [hget j]
    split
    · rfl
    · rename_i hmem
      cases hc : m.connections.get? j with
      | none => rfl
      | some c =>
        have hlive := ConnectionTable.mem_live.mpr ⟨j, hc⟩
        exact absurd (List.mem_map.mpr ⟨c, hlive, (h j).own hc⟩) hmem

/-- On a server a kind of message is added to the name table. -/
theorem register_eq {α : Type} {t : MessageType α} {receive : Option (α → δ)} (h : m.register t receive = .ok m') :
    ∃ strings registry, m' = { m with strings := strings, registry := registry } ∧
      (m.isServer = false → strings = m.strings) ∧
      (m.isServer = true → ∃ id, m.strings.add t.name = .ok (id, strings)) := by
  unfold register intern at h
  split at h
  · cases h
  · split at h
    · cases h
    · rename_i m₁ hm₁
      split at h
      · cases h
      · obtain rfl := Except.ok.inj h
        split at hm₁
        · rename_i hs
          split at hm₁
          · rename_i id strings hadd
            obtain rfl := Except.ok.inj hm₁
            exact ⟨strings, _, rfl, fun hs' => absurd hs (by rw [hs']; exact Bool.false_ne_true), fun _ => ⟨id, hadd⟩⟩
          · cases hm₁
        · rename_i hs
          obtain rfl := Except.ok.inj hm₁
          exact ⟨m.strings, _, rfl, fun _ => rfl, fun hs' => absurd hs' hs⟩

theorem changeSetting_eq (m : Manager ι δ) (w : μ) (key value : String) :
    ∃ settings, (m.changeSetting w key value).2.1 = { m with settings := settings } := by
  unfold changeSetting
  split <;> exact ⟨_, rfl⟩

theorem perform_advances (h : m.Sound) (w : μ) (c : Call μ ι δ) : Advances m (perform (m, w) c).1 := by
  cases c with
  | start => exact start_advances h w
  | connect hd remote username => exact connect_advances h w hd remote username
  | next i => exact next_advances h w i
  | process =>
    obtain ⟨places, hplaces⟩ := process_eq_run h w
    simp only [perform, hplaces]
    exact (run_nexts h w places).1
  | disconnect id reason => exact disconnect_advances h w id reason
  | send id t x => exact .refl h
  | broadcast t x => exact .refl h
  | shutdown reason => exact shutdown_advances h w reason
  | register t receive =>
    cases hr : m.register t receive with
    | error e =>
      simp only [perform, hr]
      exact .refl h
    | ok m' =>
      obtain ⟨strings, registry, rfl, -⟩ := register_eq hr
      simp only [perform, hr]
      exact .of_eq h rfl rfl rfl rfl
  | setHook hook => exact .of_eq h rfl rfl rfl rfl
  | changeSetting key value =>
    obtain ⟨settings, heq⟩ := m.changeSetting_eq w key value
    exact heq ▸ .of_eq h rfl rfl rfl rfl
  | takeEvents => exact .of_eq h rfl rfl rfl rfl
  | takeReceived => exact .of_eq h rfl rfl rfl rfl
  | outside w => exact .refl h

theorem run_advances (h : m.Sound) (w : μ) (calls : List (Call μ ι δ)) : Advances m (run (m, w) calls).1 := by
  induction calls generalizing m w with
  | nil => exact .refl h
  | cons c calls ih =>
    have hone := perform_advances h w c
    exact hone.trans (ih hone.sound (perform (m, w) c).2)

/-- After any calls: a peer of a transport is entered under the id of the live connection that carries both; a dead id
    stays dead whatever is called later; each live connection is carried by a transport that there is, and its phase
    decides the frame it waits for, its session and its channel; and frames are awaited for live connections only. -/
theorem run_sound (side : Side) (settings : Settings) (w : μ) (calls later : List (Call μ ι δ)) :
    let s := run (create side settings, w) calls
    (∀ i p id, s.1.connections.find? i p = some id ↔
      ∃ c, s.1.connections.get? id = some c ∧ c.transport = i ∧ c.peer = p) ∧
    (∀ id, s.1.connections.IsDead id → (run s later).1.connections.get? id = none) ∧
    (∀ id c, s.1.connections.get? id = some c →
      c.id = id ∧ c.transport < s.1.transports.length ∧ c.InPhase side (s.1.pending.get? id)) ∧
    ∀ id f, s.1.pending.get? id = some f → s.1.connections.isLive id = true := by
  dsimp only
  have hadv := run_advances (sound_create side settings) w calls
  have hsound := hadv.sound
  refine ⟨fun i p id => ⟨(hsound id).found, ?_⟩, fun id hd => ?_, fun id c hc => ?_, fun id f hf => ?_⟩
  · rintro ⟨c, hc, rfl, rfl⟩
    exact (hsound id).entered hc
  · exact (run_advances hsound _ later).ages.dead hd
  · have hin := (hsound id).phase hc
    rw [hadv.side] at hin
    exact ⟨(hsound id).own hc, (hsound id).carried hc, hin⟩
  · obtain ⟨c, hc⟩ := (hsound id).awaited hf
    rw [ConnectionTable.isLive, hc]
    rfl

end StateSync.Manager
