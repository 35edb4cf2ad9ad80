import StateSync.Proofs.Manager.Frames
import StateSync.Proofs.System.Opening

/-! Every move keeps a system sound. -/

namespace StateSync
open Network (Quiet Alike Deals Posts)

variable {κ δ : Type}

namespace Manager
variable {m : Manager Address δ}

/-- A frame goes out at the connection that it is sent on, if that has a channel, and nowhere else. -/
theorem sendFrame_cases (hm : m.Sound) (hnodup : m.transports.Nodup) (n : Network) (id : ConnectionId) (frame : Bytes)
    (d : Delivery) : (m.sendFrame n id frame d).2 = n ∨ ∃ a c, m.at? a c.peer = some c ∧ c.id = id ∧
      c.phase = .connected ∧ (m.sendFrame n id frame d).2 = (n.send a c.peer frame d).2 := by
  unfold sendFrame
  split
  · exact Or.inl rfl
  · split
    · exact Or.inl rfl
    · rename_i c hfilter
      obtain ⟨hc, hch⟩ := Option.filter_eq_some_iff.mp hfilter
      have ha := List.getElem?_eq_getElem ((hm id).carried hc)
      have hphase : c.phase = .connected := by
        have hin := (hm id).phase hc
        simp only [Connection.InPhase] at hin
        split at hin <;> simp_all
      refine Or.inr ⟨_, c, hm.at?_of_get? hnodup hc ha, (hm id).own hc, hphase, ?_⟩
      rw [sendTo_of_carries (hm.carries ha ((hm id).entered hc)) hc]
      rfl

end Manager

namespace System
variable {s : System κ δ} {x : Party κ} {bs : Bytes}

theorem sound_create (settings : Party κ → Settings) (luck : Nat → Luck) :
    (create settings luck : System κ δ).Sound where
  net := Network.sound_create luck
  fits x := fits_create x (settings x)
  bound h := by cases h
  apart h := by cases h
  listens h := by cases h
  lost h := by
    rw [Manager.at?_of_no_transports rfl] at h
    cases h
  linked h := by cases h

theorem Sound.elapse (h : s.Sound) (time : Nat) : Sound { s with net := s.net.elapse time } where
  net := h.net.elapse time
  fits := h.fits
  bound := h.bound
  apart := h.apart
  listens := h.listens
  lost := h.lost
  linked hw := by
    rcases h.linked hw with hj | hj
    · exact Or.inl (hj.kept (fun _ => rfl) (fun _ _ => rfl) rfl rfl)
    · exact Or.inr (hj.kept (fun _ => rfl) (fun _ _ => rfl) rfl rfl)

/-- The frame of a message of an application is no name table if the server sends it, and if a client does it has the
    server's table. -/
theorem Sound.build (h : s.Sound) (x : Party κ) {α : Type} {t : MessageType α} (ht : t.name ≠ StringTable.bootstrapName)
    {y : α} (hbuild : (s.manager x).build t y = .ok bs) : (x = .server → (Note.frame bs).IsMessage) ∧
      (x ≠ .server → (s.manager x).strings ≠ StringTable.create) := by
  obtain ⟨-, i, payload, hfind, -, rfl⟩ := Manager.build_ok_iff.mp hbuild
  refine ⟨?_, fun _ heq => ?_⟩
  · rintro rfl
    exact ⟨i, payload, rfl, ((h.fits .server).table h.side_server).find?_ne_bootstrapId ht hfind⟩
  · rw [heq, StringTable.find?_create ht] at hfind
    cases hfind

variable [DecidableEq κ]

/-! ### Ends and packets -/

theorem Sound.disconnect (h : s.Sound) (x : Party κ) (id : ConnectionId) (reason : String) :
    (s.put x ((s.manager x).disconnect s.net id reason).2).Sound := by
  have hm := (h.fits x).sound
  have hnodup := (h.fits x).nodup
  unfold Manager.disconnect
  split
  · rename_i hlive
    obtain ⟨c, hc⟩ := Option.isSome_iff_exists.mp hlive
    obtain ⟨a, ha⟩ : ∃ a, (s.manager x).transports[c.transport]? = some a :=
      ⟨_, List.getElem?_eq_getElem ((hm id).carried hc)⟩
    obtain ⟨hacts, hgone⟩ := Manager.acts_teardown hm hnodup hc ha reason
    have hsevers := h.net.severs a c.peer reason
    rw [Manager.reject_of_carries (hm.carries ha ((hm id).entered hc)) hc]
    exact h.deal (a := a) (p := c.peer) (List.mem_of_getElem? ha) hacts (.of_severs hsevers)
      (fun hc' => (nomatch hgone.symm.trans hc')) fun hw => (nomatch hsevers.near.symm.trans hw)
  · rw [put_same]
    exact h

theorem Sound.sendAt (h : s.Sound) {a : Address} {p : Peer} {c : Connection} (hat : (s.manager x).at? a p = some c)
    (hphase : c.phase = .connected) (d : Delivery) (hserver : x = .server → (Note.frame bs).IsMessage)
    (hclient : x ≠ .server → (s.manager x).strings ≠ StringTable.create) :
    Sound { s with net := (s.net.send a p bs d).2 } := by
  have hmem := Manager.mem_transports_of_at? hat
  obtain ⟨hwire, hnear, hfar⟩ := h.net.send_reaches a p bs d
  have hdeal := h.deal hmem (.refl (h.fits x).sound a p) (h.net.deals_send a p bs d) (fun hc' hnone => ?_)
    fun {b q st} hw => ?_
  · rwa [put_same] at hdeal
  · rw [hwire] at hnone
    rw [hnear]
    exact h.lost hc' hnone
  · rw [hwire] at hw
    cases x with
    | server =>
      left
      obtain ⟨k, -, hb, ht⟩ := h.joins_server hmem hw
      refine joins_put_server hmem hb ?_
      rw [hnear]
      rcases hfar hw with heq | hperm
      · rw [heq]
        exact ht
      · rw [hat] at ht ⊢
        exact ht.message_down hphase (hserver rfl) hperm
    | client k =>
      right
      obtain ⟨hb, ht⟩ := h.joins_client hmem hw
      refine joins_put_client hb hmem ?_
      rw [hnear]
      rcases hfar hw with heq | hperm
      · rw [heq]
        exact ht
      · exact ht.packet_up (hclient nofun) rfl hperm

theorem Sound.sendFrame (h : s.Sound) (x : Party κ) (id : ConnectionId) (d : Delivery)
    (hserver : x = .server → (Note.frame bs).IsMessage)
    (hclient : x ≠ .server → (s.manager x).strings ≠ StringTable.create) :
    Sound { s with net := ((s.manager x).sendFrame s.net id bs d).2 } := by
  rcases Manager.sendFrame_cases (h.fits x).sound (h.fits x).nodup s.net id bs d with heq | ⟨a, c, hat, -, hphase, heq⟩
  · rw [heq]
    exact h
  · rw [heq]
    exact h.sendAt hat hphase d hserver hclient

theorem Sound.sendAll (h : s.Sound) (x : Party κ) (d : Delivery) (ids : List ConnectionId)
    (hserver : x = .server → (Note.frame bs).IsMessage)
    (hclient : x ≠ .server → (s.manager x).strings ≠ StringTable.create) :
    Sound { s with net := ((s.manager x).sendAll s.net bs d ids).2 } := by
  induction ids generalizing s with
  | nil => exact h
  | cons id ids ih => exact ih (h.sendFrame x id d hserver hclient) hclient

theorem Sound.send (h : s.Sound) (x : Party κ) (id : ConnectionId) {α : Type} {t : MessageType α}
    (ht : t.name ≠ StringTable.bootstrapName) (y : α) :
    (s.put x (s.manager x, ((s.manager x).send s.net id t y).2)).Sound := by
  rw [put_same]
  unfold Manager.send
  split
  · exact h
  · rename_i hbuild
    obtain ⟨hserver, hclient⟩ := h.build x ht hbuild
    exact h.sendFrame x id _ hserver hclient

theorem Sound.broadcast (h : s.Sound) (x : Party κ) {α : Type} {t : MessageType α}
    (ht : t.name ≠ StringTable.bootstrapName) (y : α) :
    (s.put x (s.manager x, ((s.manager x).broadcast s.net t y).2)).Sound := by
  rw [put_same]
  unfold Manager.broadcast
  split
  · exact h
  · rename_i hbuild
    obtain ⟨hserver, hclient⟩ := h.build x ht hbuild
    exact h.sendAll x _ _ hserver hclient

/-! ### What concerns no link -/

/-- A change of what the application sees, of the hook, of the settings or of the registry. -/
theorem Sound.of_eq (h : s.Sound) {m' : Manager Address δ} {n' : Network}
    (hc : m'.connections = (s.manager x).connections) (hp : m'.pending = (s.manager x).pending)
    (hs : m'.side = (s.manager x).side) (ht : m'.transports = (s.manager x).transports)
    (htable : (s.manager x).isServer = true → m'.strings.Sound)
    (hstrings : (x = .server → (s.manager x).strings.locked = true) → m'.strings = (s.manager x).strings)
    (hq : Quiet s.net n') : (s.put x (m', n')).Sound := by
  have hfits := h.fits x
  have hat : ∀ a p, m'.at? a p = (s.manager x).at? a p := by
    intro a p
    rw [Manager.at?, hc, ht, Manager.at?]
  have hserver : m'.isServer = (s.manager x).isServer := by rw [Manager.isServer, hs, Manager.isServer]
  refine h.stir ⟨fun id => (hfits.sound id).of_eq hc hp hs ht, hs.trans hfits.side, ht ▸ hfits.nodup,
    fun hs' => htable (hserver ▸ hs'), fun hs' {a p b q c c'} hc hc' => ?_⟩ ht hat hstrings (h.net.quiet hq)
    (hq.alike _)
  rw [hat] at hc hc'
  exact hfits.single (hserver ▸ hs') hc hc'

theorem Sound.register (h : s.Sound) (x : Party κ) {α : Type} (t : MessageType α) (receive : Option (α → δ)) :
    (s.put x (((s.manager x).register t receive).toOption.getD (s.manager x), s.net)).Sound := by
  cases hr : (s.manager x).register t receive with
  | error e =>
    rw [show (Except.error e : Except NetError (Manager Address δ)).toOption.getD (s.manager x) = s.manager x from rfl,
      put_same]
    exact h
  | ok m' =>
    obtain ⟨strings, registry, rfl, hsame, hadd⟩ := Manager.register_eq hr
    refine h.of_eq rfl rfl rfl rfl (fun hs => ?_) (fun hlocked => ?_) (.refl s.net)
    · obtain ⟨id, hid⟩ := hadd hs
      exact ((h.fits x).table hs).add hid
    · cases hs : (s.manager x).isServer with
      | false => exact hsame hs
      | true =>
        obtain ⟨id, hid⟩ := hadd hs
        exact StringTable.add_of_locked (hlocked ((h.fits x).isServer.mp hs)) hid

theorem Sound.changeSetting (h : s.Sound) (x : Party κ) (key value : String) :
    (s.put x ((s.manager x).changeSetting s.net key value).2).Sound := by
  unfold Manager.changeSetting
  split
  · exact h.of_eq rfl rfl rfl rfl (h.fits x).table (fun _ => rfl) (.refl _)
  · exact h.of_eq rfl rfl rfl rfl (h.fits x).table (fun _ => rfl) (Network.tuneAll_quiet _ _ _)

/-! ### All moves -/

theorem Sound.call (h : s.Sound) (x : Party κ) (c : Manager.Call Network Address δ) (hc : c.IsOrdinary) :
    (s.put x (Manager.perform (s.manager x, s.net) c)).Sound := by
  have hkeep : ∀ {m' : Manager Address δ}, m'.connections = (s.manager x).connections →
      m'.pending = (s.manager x).pending → m'.side = (s.manager x).side → m'.transports = (s.manager x).transports →
      m'.strings = (s.manager x).strings → (s.put x (m', s.net)).Sound := fun {m'} hc hp hs ht hstr =>
    h.of_eq hc hp hs ht (fun hs' => hstr ▸ (h.fits x).table hs') (fun _ => hstr) (.refl s.net)
  cases c with
  | start => exact h.start x
  | connect hd remote username => exact absurd hc id
  | next i => exact h.next x i
  | process => exact h.process x
  | disconnect id reason => exact h.disconnect x id reason
  | send id t y => exact h.send x id hc y
  | broadcast t y => exact h.broadcast x hc y
  | shutdown reason => exact h.shutdown x reason
  | register t receive => exact h.register x t receive
  | setHook hook => exact hkeep rfl rfl rfl rfl rfl
  | changeSetting key value => exact h.changeSetting x key value
  | takeEvents => exact hkeep rfl rfl rfl rfl rfl
  | takeReceived => exact hkeep rfl rfl rfl rfl rfl
  | outside n => exact absurd hc id

theorem Sound.perform (h : s.Sound) (move : Move κ δ) : (s.perform move).Sound := by
  cases move with
  | call x c hc => exact h.call x c hc
  | connect k addr remote username =>
    rcases hb : s.net.bindAt addr with _ | ⟨a, n⟩
    · rw [System.perform, hb]
      exact h
    · rw [System.perform, hb]
      exact h.connect hb k remote username
  | replace x settings => exact h.replace x settings
  | elapse time => exact h.elapse time

theorem Sound.run (h : s.Sound) (moves : List (Move κ δ)) : (s.run moves).Sound := by
  induction moves generalizing s with
  | nil => exact h
  | cons move moves ih => exact ih (h.perform move)

end System
end StateSync
