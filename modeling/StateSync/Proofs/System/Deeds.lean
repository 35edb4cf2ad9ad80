import StateSync.Proofs.Manager.Frames
import StateSync.Proofs.System.Opening
import StateSync.Proofs.System.Service
import StateSync.Proofs.Transport.Acted

/-! What a call on a manager comes to (`Does`), and what it is to the network: acts at the manager's own transports and
    at addresses that were free, by which nothing is sent but what the manager says by itself or is given to send. -/

namespace StateSync
open Network (Act Acted Asked Cut Grown Quiet)

/-! ### Name tables -/

/-- What may become of a server's name table: it grows until it is locked. -/
structure StringTable.Grows (t t' : StringTable) : Prop where
  sound : t.Sound → t'.Sound
  locked : t.locked = true → t' = t

namespace StringTable.Grows
variable {t t' : StringTable}

theorem refl (t : StringTable) : t.Grows t := ⟨id, fun _ => rfl⟩

theorem of_eq (h : t' = t) : t.Grows t' := h ▸ .refl t

theorem of_lock (h : t' = t ∨ t' = t.lock) : t.Grows t' := by
  rcases h with rfl | rfl
  · exact .refl t'
  · exact ⟨Sound.lock, lock_of_locked⟩

theorem of_add {name : String} {id : UInt8} (h : t.add name = .ok (id, t')) : t.Grows t' :=
  ⟨fun hs => hs.add h, fun hl => add_of_locked hl h⟩

end StringTable.Grows

namespace Manager
variable {δ : Type} {m m' : Manager Address δ} {n n' n₀ : Network} {W W' : Bytes → Prop} {a : Address} {p : Peer} {i : Nat}
  {x : Act} {hs : List Address}

/-- An address at which a manager may act: one of its transports, or a free one. -/
def Commands (m : Manager Address δ) (n : Network) (a : Address) : Prop := a ∈ m.transports ∨ n.isBound a = false

/-- An act where the manager may act; all that is sent is sent by a transport, and is among the words. -/
structure Within (m : Manager Address δ) (n : Network) (W : Bytes → Prop) (x : Act) : Prop where
  site : ∀ {a}, x.site = some a → m.Commands n a
  words : ∀ {a p bytes d}, x = .send a p bytes d → a ∈ m.transports ∧ W bytes

theorem Within.mono (h : m.Within n W x) (hW : ∀ bytes, W bytes → W' bytes) : m.Within n W' x :=
  ⟨h.site, fun hx => (h.words hx).imp_right (hW _)⟩

theorem Within.elsewhere {O : Address → Prop} (h : m.Within n W x)
    (hO : ∀ a, O a → n.isBound a = true ∧ a ∉ m.transports) : x.Elsewhere O := by
  intro a hx ha
  obtain ⟨hb, hm⟩ := hO a ha
  rcases h.site hx with hmem | hfree
  · exact hm hmem
  · exact (nomatch hfree.symm.trans hb)

theorem within_of_site (ha : m.Commands n a) (hx : x.site = some a) (hsend : ∀ b p bytes d, x ≠ .send b p bytes d) :
    m.Within n W x where
  site hb := by
    obtain rfl := Option.some.inj (hx.symm.trans hb)
    exact ha
  words hx := absurd hx (hsend _ _ _ _)

theorem within_send (ha : a ∈ m.transports) {bytes : Bytes} (hW : W bytes) (p : Peer) (d : Delivery) :
    m.Within n W (.send a p bytes d) where
  site hb := by
    obtain rfl := Option.some.inj hb
    exact Or.inl ha
  words hx := by
    obtain ⟨rfl, -, rfl, -⟩ := Act.send.inj hx
    exact ⟨ha, hW⟩

theorem within_bind (ha : m.Commands n a) : m.Within n W (.bind a) := within_of_site ha rfl nofun

theorem within_bindAny : m.Within n W .bindAny := ⟨nofun, nofun⟩

theorem within_start (ha : m.Commands n a) : m.Within n W (.start a) := within_of_site ha rfl nofun

/-! ### Events -/

theorem handleEvent_acted (hm : m.Sound) (hi : m.transports[i]? = some a) (n₀ n : Network) (e : TransportEvent) :
    let r := m.handleEvent n i a e
    Acted (m.Within n₀ (m.Utters r.1)) n r.2 := by
  have ha := List.mem_of_getElem? hi
  have hr := handleEvent_responds hm hi n e
  dsimp only
  generalize (m.handleEvent n i a e).1 = m' at hr ⊢
  generalize (m.handleEvent n i a e).2 = n' at hr ⊢
  cases hr with
  | silent kept => exact .refl
  | declined server new => exact .refl
  | granted server new => exact .one (x := .approve a e.peer) (within_of_site (Or.inl ha) rfl nofun)
  | said words kept => exact .one (within_send ha words e.peer .ordered)
  | @hungUp reason ended => exact .one (x := .disconnect a e.peer reason) (within_of_site (Or.inl ha) rfl nofun)
  | @broke bytes reason words ended =>
    exact (Acted.one (within_send ha words e.peer .ordered)).act (x := .disconnect a e.peer reason)
      (within_of_site (Or.inl ha) rfl nofun)

/-! ### Packets -/

theorem sendFrame_acted (m : Manager Address δ) (n₀ n : Network) (id : ConnectionId) (frame : Bytes) (d : Delivery) :
    Acted (m.Within n₀ (· = frame)) n (m.sendFrame n id frame d).2 := by
  unfold sendFrame
  split
  · exact .refl
  · split
    · exact .refl
    · rename_i c _
      unfold sendTo
      split
      · exact .refl
      · rename_i a ha
        exact .one (within_send (W := (· = frame)) (List.mem_of_getElem? ha) rfl c.peer d)

theorem sendAll_acted (m : Manager Address δ) (n₀ n : Network) (frame : Bytes) (d : Delivery) (ids : List ConnectionId) :
    Acted (m.Within n₀ (· = frame)) n (m.sendAll n frame d ids).2 := by
  induction ids generalizing n with
  | nil => exact .refl
  | cons id ids ih => exact (m.sendFrame_acted n₀ n id frame d).trans (ih _)

theorem isBound_sendFrame (m : Manager Address δ) (hn : n.Sound) (id : ConnectionId) (frame : Bytes) (d : Delivery)
    (a : Address) : (m.sendFrame n id frame d).2.isBound a = n.isBound a := by
  unfold sendFrame
  split
  · rfl
  · split
    · rfl
    · unfold sendTo
      split
      · rfl
      · exact (hn.deals_send _ _ frame d).alike.isBound a

theorem isBound_sendAll (m : Manager Address δ) (hn : n.Sound) (frame : Bytes) (d : Delivery) (ids : List ConnectionId)
    (a : Address) : (m.sendAll n frame d ids).2.isBound a = n.isBound a := by
  induction ids generalizing n with
  | nil => rfl
  | cons id ids ih =>
    exact (ih (m.sendFrame_sound hn id frame d)).trans (m.isBound_sendFrame hn id frame d a)

/-! ### Transports -/

theorem closeAll_acted (h : ∀ a ∈ hs, m.Commands n₀ a) (n : Network) : Acted (m.Within n₀ W) n (closeAll n hs) :=
  .foldl (fun n a ha => .one (n := n) (x := .close a) (within_of_site (h a ha) rfl nofun)) n

theorem tune_acted (ha : m.Commands n₀ a) (n : Network) (s : Settings) : Acted (m.Within n₀ W) n (tune n s a) :=
  (Acted.one (x := .setImpairment a s.impairment) (within_of_site ha rfl nofun)).act (x := .setRateLimit a s.rateLimit)
    (within_of_site ha rfl nofun)

theorem openAll_acted {opened : List Address} (hgrown : Grown n₀ n opened) (s : Settings) (addrs : List Address) :
    Acted (m.Within n₀ W) n (openAll s n opened addrs).2 := by
  induction addrs generalizing n opened with
  | nil => exact .refl
  | cons addr addrs ih =>
    rcases hbind : n.bind addr with ⟨e | a, n₁⟩
    · obtain rfl : n₁ = n := by
        unfold Network.bind at hbind
        split at hbind
        · exact (Prod.mk.inj hbind).2.symm
        · cases hbind
      simp only [openAll, Medium.bind, hbind]
      exact closeAll_acted (fun a ha => Or.inr (hgrown.free a ha)) _
    · obtain ⟨rfl, hone, -⟩ := hgrown.sound.bind hbind
      have hlast : a ∈ opened ++ [a] := List.mem_append_right opened (List.mem_singleton_self a)
      have hboth := (hgrown.trans hone).quiet (Network.tune_quiet n₁ s a)
      have ha : m.Commands n₀ a := Or.inr (hboth.free a hlast)
      obtain ⟨n₂, hstart, hopen⟩ := hboth.start hlast
      have hstart' : Medium.start (tune n₁ s a) a = (.ok (), n₂) := hstart
      have hn₁ : Acted (m.Within n₀ W) n n₁ := by
        have hbound : Acted (m.Within n₀ W) n (n.bind a).2 := .one (within_bind ha)
        rwa [hbind] at hbound
      have hn₂ : Acted (m.Within n₀ W) n n₂ := by
        have hstarted : Acted (m.Within n₀ W) n ((tune n₁ s a).start a).2 :=
          (hn₁.trans (tune_acted ha n₁ s)).act (within_start ha)
        rwa [hstart] at hstarted
      simp only [openAll, Medium.bind, hbind, hstart']
      exact hn₂.trans (ih hopen)

/-- A client that connects by a transport made for it. -/
theorem connect_acted (m : Manager Address δ) (n₀ : Network) (hfree : m.Commands n₀ a) (hbound : n.isBound a = true)
    (remote : Address) (username : String) : Acted (m.Within n₀ W) n (m.connect n a remote username).2.2 := by
  have hclosed : ∀ {n₁ : Network}, Acted (m.Within n₀ W) n n₁ → Acted (m.Within n₀ W) n (n₁.close a) := fun h =>
    h.act (x := .close a) (within_of_site hfree rfl nofun)
  unfold connect
  split
  · exact hclosed .refl
  · split
    · exact hclosed .refl
    · have htuned : Acted (m.Within n₀ W) n (tune n m.settings a) := tune_acted hfree n m.settings
      have hstill : (tune n m.settings a).isBound a = true := ((Network.tune_quiet n m.settings a).isBound a).trans hbound
      have hasked : Acted (m.Within n₀ W) n ((tune n m.settings a).connect a remote).2 := by
        have hact := htuned.act (x := .connect a remote) (within_of_site hfree rfl nofun)
        rwa [Network.act, if_pos hstill] at hact
      split
      · rename_i heq
        rw [show (tune n m.settings a).connect a remote = _ from heq] at hasked
        exact hclosed hasked
      · rename_i heq
        rw [show (tune n m.settings a).connect a remote = _ from heq] at hasked
        exact hasked.trans (closeAll_acted (fun b hb => Or.inl hb) _)

/-! ### Calls -/

/-- All that one call can come to, for the manager and for the network, if the manager is given the words `W` to send. -/
inductive Does (W : Bytes → Prop) (m : Manager Address δ) (n : Network) : Manager Address δ → Network → Prop
  | handles {i : Nat} {a : Address} {e : TransportEvent} {n₁ : Network} (place : m.transports[i]? = some a)
      (polled : n.poll a = (some e, n₁)) : Does W m n (m.handleEvent n₁ i a e).1 (m.handleEvent n₁ i a e).2
  /-- Nothing that concerns connections. -/
  | stirs {m' : Manager Address δ} {n' : Network} (connections : m'.connections = m.connections)
      (pending : m'.pending = m.pending) (side : m'.side = m.side) (transports : m'.transports = m.transports)
      (table : m.isServer = true → m.strings.Grows m'.strings) (own : m.isServer = false → m'.strings = m.strings)
      (quiet : Quiet n n') (acted : Acted (m.Within n fun _ => False) n n') : Does W m n m' n'
  | sends {frame : Bytes} (given : W frame) (d : Delivery) (ids : List ConnectionId) :
      Does W m n m (m.sendAll n frame d ids).2
  | ends {id : ConnectionId} {c : Connection} {a : Address} (live : m.connections.get? id = some c)
      (place : m.transportOf? c = some a) (reason : String) :
      Does W m n (m.teardown id reason) (n.sever a c.peer reason)
  | opens {hs : List Address} {n' : Network} (server : m.isServer = true) (idle : m.isRunning = false)
      (grown : Grown n n' hs) (nodup : hs.Nodup) (acted : Acted (m.Within n fun _ => False) n n') :
      Does W m n { m with transports := hs } n'
  /-- What was opened has been given up again. -/
  | fails {n' : Network} (server : m.isServer = true) (idle : m.isRunning = false) (cut : Cut n n') (sound : n'.Sound)
      (bound : ∀ a, n'.isBound a = n.isBound a) (acted : Acted (m.Within n fun _ => False) n n') : Does W m n m n'
  | shuts {m' : Manager Address δ} (advances : Advances m m') (transports : m'.transports = [])
      (strings : m'.strings = m.strings) (reason : String) : Does W m n m'
        (m.transports.foldl Network.close (m.transports.foldl (fun n a => n.shutdown a reason) n))

/-- A call that handles one event at the most, and has nothing to do with transports made by others. -/
def Call.IsStep {μ ι : Type} : Call μ ι δ → Prop
  | .connect .. | .process | .outside _ => False
  | _ => True

/-- The frame that a call gives the manager to send. -/
def Call.Gives (m : Manager Address δ) (frame : Bytes) : Call Network Address δ → Prop
  | .send _ t x => m.build t x = .ok frame
  | .broadcast t x => m.build t x = .ok frame
  | _ => False

/-- What an application gives is no name table. -/
theorem Call.Gives.find? {frame : Bytes} {c : Call Network Address δ} (h : c.Gives m frame) (hc : c.IsOrdinary) :
    ∃ name i payload, name ≠ StringTable.bootstrapName ∧ m.strings.find? name = some i ∧ frame = i :: payload := by
  cases c with
  | send id t x =>
    obtain ⟨-, i, payload, hfind, -, rfl⟩ := build_ok_iff.mp h
    exact ⟨t.name, i, payload, hc, hfind, rfl⟩
  | broadcast t x =>
    obtain ⟨-, i, payload, hfind, -, rfl⟩ := build_ok_iff.mp h
    exact ⟨t.name, i, payload, hc, hfind, rfl⟩
  | _ => cases h

theorem Does.refl (W : Bytes → Prop) (m : Manager Address δ) (n : Network) : Does W m n m n :=
  .stirs rfl rfl rfl rfl (fun _ => .refl _) (fun _ => rfl) (.refl n) .refl

theorem next_does (W : Bytes → Prop) (m : Manager Address δ) (n : Network) (i : Nat) :
    Does W m n (m.next n i).1 (m.next n i).2 := by
  unfold next
  split
  · exact .refl W m n
  · rename_i a hi
    split
    · rename_i n₁ hpoll
      obtain rfl := Network.poll_none hpoll
      exact .refl W m n₁
    · rename_i hpoll
      exact .handles hi hpoll

theorem start_does (W : Bytes → Prop) (m : Manager Address δ) (hn : n.Sound) :
    Does W m n (m.start n).2.1 (m.start n).2.2 := by
  have hopen : ∀ addrs, Acted (m.Within n fun _ => False) n (openAll m.settings n [] addrs).2 :=
    openAll_acted (.refl hn) m.settings
  unfold start
  split
  · exact .refl W m n
  · rename_i hs
    split
    · exact .refl W m n
    · rename_i hidle
      have hserver : m.isServer = true := by simpa using hs
      split
      · exact .refl W m n
      · rename_i addrs _
        have hopen := hopen addrs
        rcases (Grown.refl hn).openAll List.nodup_nil m.settings addrs with
          ⟨hs, n', heq, hgrown, hnodup⟩ | ⟨e, n', heq, hcut, hsound, hbound⟩
        · rw [heq] at hopen ⊢
          exact .opens hserver (eq_false_of_ne_true hidle) hgrown hnodup hopen
        · rw [heq] at hopen ⊢
          exact .fails hserver (eq_false_of_ne_true hidle) hcut hsound hbound hopen

theorem disconnect_does (W : Bytes → Prop) (hm : m.Sound) (n : Network) (id : ConnectionId) (reason : String) :
    Does W m n (m.disconnect n id reason).2.1 (m.disconnect n id reason).2.2 := by
  unfold disconnect
  split
  · rename_i hlive
    obtain ⟨c, hget⟩ := Option.isSome_iff_exists.mp hlive
    have hplace := List.getElem?_eq_getElem ((hm id).carried hget)
    rw [reject_of_carries (hm.carries hplace ((hm id).entered hget)) hget]
    exact .ends hget hplace reason
  · exact .refl W m n

theorem shutdown_does (W : Bytes → Prop) (hm : m.Sound) (n : Network) (reason : String) :
    Does W m n (m.shutdown n reason).1 (m.shutdown n reason).2 := by
  cases hrun : m.isRunning with
  | false =>
    rw [shutdown, hrun, if_pos Bool.not_false]
    exact .refl W m n
  | true =>
    obtain ⟨m', heq, htransports, hstrings, -⟩ := shutdown_eq hrun n reason
    have hadv := shutdown_advances hm n reason
    rw [heq] at hadv ⊢
    exact .shuts hadv htransports hstrings reason

theorem register_does (W : Bytes → Prop) (m : Manager Address δ) (n : Network) {α : Type} (t : MessageType α)
    (receive : Option (α → δ)) : Does W m n ((m.register t receive).toOption.getD m) n := by
  cases hr : m.register t receive with
  | error e => exact .refl W m n
  | ok m' =>
    obtain ⟨strings, registry, rfl, hown, hadd⟩ := register_eq hr
    refine .stirs rfl rfl rfl rfl (fun hs => ?_) hown (.refl n) .refl
    obtain ⟨id, hid⟩ := hadd hs
    exact .of_add hid

theorem changeSetting_does (W : Bytes → Prop) (m : Manager Address δ) (n : Network) (key value : String) :
    Does W m n (m.changeSetting n key value).2.1 (m.changeSetting n key value).2.2 := by
  unfold changeSetting
  split
  · exact .stirs rfl rfl rfl rfl (fun _ => .refl _) (fun _ => rfl) (.refl n) .refl
  · rename_i settings _
    exact .stirs rfl rfl rfl rfl (fun _ => .refl _) (fun _ => rfl) (Network.tuneAll_quiet n settings m.transports)
      (.foldl (fun n' a ha => tune_acted (Or.inl ha) n' settings) n)

theorem perform_does (hm : m.Sound) (hn : n.Sound) {c : Call Network Address δ} (hc : c.IsStep) :
    Does (fun frame => c.Gives m frame) m n (perform (m, n) c).1 (perform (m, n) c).2 := by
  cases c with
  | start => exact start_does _ m hn
  | connect a remote username => cases hc
  | next i => exact next_does _ m n i
  | process => cases hc
  | disconnect id reason => exact disconnect_does _ hm n id reason
  | send id t x =>
    rw [perform, send]
    split
    · exact .refl _ m n
    · rename_i hbuild
      exact .sends hbuild t.delivery [id]
  | broadcast t x =>
    rw [perform, broadcast]
    split
    · exact .refl _ m n
    · rename_i hbuild
      exact .sends hbuild t.delivery _
  | shutdown reason => exact shutdown_does _ hm n reason
  | register t receive => exact register_does _ m n t receive
  | changeSetting key value => exact changeSetting_does _ m n key value
  | outside n' => cases hc
  | _ => exact .stirs rfl rfl rfl rfl (fun _ => .refl _) (fun _ => rfl) (.refl n) .refl

namespace Does

theorem acted (h : Does W m n m' n') (hm : m.Sound) :
    Acted (m.Within n fun bytes => W bytes ∨ m.Utters m' bytes) n n' := by
  have hsilent : ∀ {n₁ : Network} {W : Bytes → Prop}, Acted (m.Within n fun _ => False) n n₁ → Acted (m.Within n W) n n₁ :=
    fun h => h.mono fun x hx => hx.mono nofun
  cases h with
  | @handles i a e n₁ place polled =>
    have ha : m.Commands n a := Or.inl (List.mem_of_getElem? place)
    have hpolled : ∀ {W : Bytes → Prop}, Acted (m.Within n W) n n₁ := by
      intro W
      have hone : Acted (m.Within n W) n (n.poll a).2 := .one (x := .poll a) (within_of_site ha rfl nofun)
      rwa [polled] at hone
    exact hpolled.trans ((handleEvent_acted hm place n n₁ e).mono fun x hx => hx.mono fun _ => Or.inr)
  | stirs connections pending side transports table own quiet acted => exact hsilent acted
  | @sends frame given d ids =>
    refine (m.sendAll_acted n n frame d ids).mono fun x hx => hx.mono ?_
    rintro bytes rfl
    exact Or.inl given
  | @ends id c a live place reason =>
    exact .one (x := .disconnect a c.peer reason) (within_of_site (Or.inl (List.mem_of_getElem? place)) rfl nofun)
  | opens server idle grown nodup acted => exact hsilent acted
  | fails server idle cut sound bound acted => exact hsilent acted
  | shuts advances transports strings reason =>
    refine .trans (.foldl (fun n' a ha => ?_) n) (closeAll_acted (fun a ha => Or.inl ha) _)
    exact .one (x := .shutdown a reason) (within_of_site (Or.inl ha) rfl nofun)

/-- The transports of a manager after a call are its own, or stand where none stood. -/
theorem commands (h : Does W m n m' n') (hm : m.Sound) : ∀ a ∈ m'.transports, m.Commands n a := by
  have hsame : m'.transports = m.transports → ∀ a ∈ m'.transports, m.Commands n a := fun heq a ha => Or.inl (heq ▸ ha)
  cases h with
  | @handles i a e n₁ place polled =>
    obtain ⟨id, hid⟩ := handleEvent_handles hm (List.getElem?_eq_some_iff.mp place).1 n₁ a e
    exact hsame hid.transports
  | stirs connections pending side transports table own quiet acted => exact hsame transports
  | sends given d ids => exact hsame rfl
  | ends live place reason => exact hsame (teardown_keeps m _ reason).1
  | opens server idle grown nodup acted => exact fun a ha => Or.inr (grown.free a ha)
  | fails server idle cut sound bound acted => exact hsame rfl
  | shuts advances transports strings reason => exact fun a ha => by rw [transports] at ha; cases ha

theorem grows (h : Does W m n m' n') (hm : m.Sound) (hs : m.isServer = true) : m.strings.Grows m'.strings := by
  cases h with
  | @handles i a e n₁ place polled =>
    obtain ⟨id, hid⟩ := handleEvent_handles hm (List.getElem?_eq_some_iff.mp place).1 n₁ a e
    exact .of_lock (hid.strings hs)
  | stirs connections pending side transports table own quiet acted => exact table hs
  | ends live place reason => exact .of_eq (teardown_keeps m _ reason).2.1
  | shuts advances transports strings reason => exact .of_eq strings
  | _ => exact .refl _

/-- The name table of a client changes by events only. -/
theorem strings (h : Does W m n m' n') (hs : m.isServer = false) : m'.strings = m.strings ∨ ∃ i a e n₁,
    m.transports[i]? = some a ∧ n.poll a = (some e, n₁) ∧ m' = (m.handleEvent n₁ i a e).1 := by
  cases h with
  | handles place polled => exact Or.inr ⟨_, _, _, _, place, polled, rfl⟩
  | stirs connections pending side transports table own quiet acted => exact Or.inl (own hs)
  | ends live place reason => exact Or.inl (teardown_keeps m _ reason).2.1
  | shuts advances transports strings reason => exact Or.inl strings
  | _ => exact Or.inl rfl

theorem fits {κ : Type} {k : κ} (h : Does W m n m' n') (hm : Party.Fits (.client k) m) : Party.Fits (.client k) m' := by
  have hs : m.isServer = false := eq_false_of_ne_true fun hs => by cases hm.isServer.mp hs
  cases h with
  | @handles i a e n₁ place polled => exact (acts_handleEvent hm.sound hm.nodup place n₁ e).fits hm
  | stirs connections pending side transports table own quiet acted =>
    have hat := at?_congr connections transports
    have hs' : m'.isServer = m.isServer := by rw [isServer, side, isServer]
    refine ⟨fun id => (hm.sound id).of_eq connections pending side transports, side.trans hm.side, transports ▸ hm.nodup,
      fun hserver => ?_, fun _ {a p b q c c'} hc hc' => ?_⟩
    · cases hs.symm.trans (hs'.symm.trans hserver)
    · rw [hat] at hc hc'
      exact hm.single hs hc hc'
  | ends live place reason => exact (acts_teardown hm.sound hm.nodup live place reason).1.fits hm
  | opens server idle grown nodup acted => cases hs.symm.trans server
  | shuts advances transports strings reason =>
    refine ⟨advances.sound, advances.side.trans hm.side, transports ▸ List.nodup_nil, fun hserver => ?_,
      fun _ {a p b q c c'} hc => ?_⟩
    · rw [isServer, advances.side] at hserver
      cases hs.symm.trans hserver
    · cases (at?_of_no_transports transports a p).symm.trans hc
  | _ => exact hm

/-- A connection that a client has after was there before. -/
theorem seat {κ : Type} {k : κ} (h : Does W m n m' n') (hm : Party.Fits (.client k) m) {b : Address} {q : Peer}
    {c : Connection} (hc : m'.at? b q = some c) : ∃ c₀, m.at? b q = some c₀ := by
  have hs : m.isServer = false := eq_false_of_ne_true fun hs => by cases hm.isServer.mp hs
  cases h with
  | @handles i a e n₁ place polled => exact (acts_handleEvent hm.sound hm.nodup place n₁ e).seat hs hc
  | stirs connections pending side transports table own quiet acted =>
    exact ⟨c, (at?_congr connections transports b q).symm.trans hc⟩
  | ends live place reason => exact (acts_teardown hm.sound hm.nodup live place reason).1.seat hs hc
  | opens server idle grown nodup acted => cases hs.symm.trans server
  | shuts advances transports strings reason => cases (at?_of_no_transports transports b q).symm.trans hc
  | _ => exact ⟨c, hc⟩

/-- A transport that is still there after is still the manager's. -/
theorem remains (h : Does W m n m' n') (hm : m.Sound) (hn : n.Sound) (ha : a ∈ m.transports)
    (hb : n'.isBound a = true) : a ∈ m'.transports := by
  cases h with
  | @handles i b e n₁ place polled =>
    obtain ⟨id, hid⟩ := handleEvent_handles hm (List.getElem?_eq_some_iff.mp place).1 n₁ b e
    exact hid.transports ▸ ha
  | stirs connections pending side transports table own quiet acted => exact transports ▸ ha
  | ends live place reason => exact (teardown_keeps m _ reason).1 ▸ ha
  | opens server idle grown nodup acted =>
    have hnil : m.transports = [] := by simpa [isRunning] using idle
    rw [hnil] at ha
    cases ha
  | shuts advances transports strings reason =>
    exact absurd ha (((hn.shutdownAll m.transports reason).2.1.closeAll m.transports).2.2 a |>.mp hb).2
  | _ => exact ha

theorem bound (h : Does W m n m' n') (hm : m.Sound) (hn : n.Sound) (hb : ∀ a ∈ m.transports, n.isBound a = true) :
    ∀ a ∈ m'.transports, n'.isBound a = true := by
  cases h with
  | @handles i a e n₁ place polled =>
    obtain ⟨hn₁, halike, -⟩ := hn.poll polled
    obtain ⟨id, hid⟩ := handleEvent_handles hm (List.getElem?_eq_some_iff.mp place).1 n₁ a e
    intro b hmem
    rw [(handleEvent_deals hm place hn₁).alike.isBound, halike.isBound]
    exact hb b (hid.transports ▸ hmem)
  | stirs connections pending side transports table own quiet acted =>
    intro a ha
    rw [quiet.isBound]
    exact hb a (transports ▸ ha)
  | sends given d ids =>
    intro a ha
    rw [isBound_sendAll m hn]
    exact hb a ha
  | ends live place reason =>
    intro a ha
    rw [(hn.severs _ _ reason).alike.isBound]
    exact hb a ((teardown_keeps m _ reason).1 ▸ ha)
  | opens server idle grown nodup acted => exact fun a ha => (grown.isBound a).mpr (Or.inr ha)
  | fails server idle cut sound bound acted => exact fun a ha => (bound a).trans (hb a ha)
  | shuts advances transports strings reason => exact fun a ha => by rw [transports] at ha; cases ha

end Does

/-! ### Connecting -/

theorem bindAt_acted {addr : Option Address} (h : n.bindAt addr = some (a, n')) : Acted (m.Within n W) n n' := by
  cases addr with
  | none =>
    have hact : Acted (m.Within n W) n ((n.bindAny.map (·.2)).getD n) := .one within_bindAny
    rwa [show n.bindAny = _ from h] at hact
  | some addr =>
    rw [Network.bindAt, Network.bind] at h
    by_cases hb : n.isBound addr = true
    · rw [if_pos hb] at h
      cases h
    · have hact : Acted (m.Within n W) n (n.bind addr).2 := .one (within_bind (Or.inr (eq_false_of_ne_true hb)))
      rw [if_neg hb] at h
      rw [Network.bind, if_neg hb] at hact
      obtain ⟨-, rfl⟩ := Prod.mk.inj (Option.some.inj h)
      exact hact

/-- All that it can come to when a client connects by a transport that was made for it: the transport is closed again,
    or it takes the place of those before it, and the listener has been asked. -/
inductive Dials (m : Manager Address δ) (n : Network) (a : Address) (remote : Address) (username : String) :
    Manager Address δ → Network → Prop
  | refused {n₁ : Network} (quiet : Quiet n n₁) : Dials m n a remote username m (n₁.close a)
  | asked {n₁ n₂ : Network} {p q : Peer} (idle : ∀ id, m.connections.get? id = none) (quiet : Quiet n n₁)
      (asked : Asked n₁ n₂ a p remote q) :
      Dials m n a remote username (m.dialing a username p remote) (m.transports.foldl Network.close n₂)

theorem connect_dials (hm : m.Sound) (hs : m.isServer = false) (hn : n.Sound) (hb : n.isBound a = true)
    (remote : Address) (username : String) :
    Dials m n a remote username (m.connect n a remote username).2.1 (m.connect n a remote username).2.2 := by
  unfold connect
  rw [hs, if_neg Bool.false_ne_true]
  split
  · exact .refused (.refl n)
  · rename_i hpeers
    have hq := Network.tune_quiet n m.settings a
    generalize tune n m.settings a = n₁ at hq ⊢
    rcases Network.connect_cases n₁ a remote with ⟨e, heq⟩ | ⟨hl, hne⟩
    · rw [show Medium.connect n₁ a remote = _ from heq]
      exact .refused hq
    · obtain ⟨p, n₂, q, heq, hasked⟩ := (hn.quiet hq).connect ((hq.isBound a).trans hb) hl hne
      rw [show Medium.connect n₁ a remote = _ from heq]
      exact .asked (hm.get?_of_peerCount hpeers) hq hasked

end Manager
end StateSync
