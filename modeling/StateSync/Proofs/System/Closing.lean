import Mathlib.Data.List.Basic
import StateSync.Proofs.Manager.Outcome
import StateSync.Proofs.System.Starting
import StateSync.Proofs.Transport.Happenings

/-! A manager that shuts down (`Closes`): no connection is left, the application is told of the end of each, all links
    at its transports are gone with word to the other ends, and the addresses are free. A server can then be started
    again as it was started before, and whoever it takes up gets an id that was never given (`partake_shutdown`). -/

namespace StateSync

/-! ### Tables without connections -/

namespace ConnectionTable
variable {t : ConnectionTable}

theorem nodup_ids (hown : ∀ {id c}, t.get? id = some c → c.id = id) : (t.live.map (·.id)).Nodup := by
  rw [live, List.Nodup, List.pairwise_map, List.pairwise_filterMap, List.pairwise_iff_getElem]
  intro i j hi hj hij c hc d hd heq
  have hplace : ∀ {k : Nat} {x : Connection} (hk : k < t.slots.length), t.slots[k] = some x → x.id = ⟨k⟩ :=
    fun hk hx => hown (get?_eq_some_iff.mpr (List.getElem?_eq_some_iff.mpr ⟨hk, hx⟩))
  rw [hplace hi hc, hplace hj hd] at heq
  exact Nat.ne_of_lt hij (congrArg ConnectionId.val heq)

theorem live_eq_nil (hnone : ∀ id, t.get? id = none) : t.live = [] :=
  List.eq_nil_iff_forall_not_mem.mpr fun _ hc => by
    obtain ⟨id, hid⟩ := mem_live.mp hc
    exact (nomatch (hnone id).symm.trans hid)

end ConnectionTable

/-! ### Endpoints without links -/

namespace Network
variable {n : Network} {a c : Address} {hs : List Address} {reason : String}

theorem close_of_idle (hidle : ∀ p, n.wire? a p = none) : n.close a = n.unbind a := by
  have hsever : n.severAll a "endpoint closed" = n := by
    unfold severAll
    split
    · rfl
    · exact List.foldl_fixed' (fun p => sever_none (hidle p) _) _
  unfold Network.close
  rw [hsever]
  rfl

theorem endpoint?_closeAll (hidle : ∀ a ∈ hs, ∀ p, n.wire? a p = none) (hc : c ∉ hs) :
    (hs.foldl Network.close n).endpoint? c = n.endpoint? c := by
  induction hs generalizing n with
  | nil => rfl
  | cons a hs ih =>
    obtain ⟨hca, hc⟩ := not_or.mp (mt List.mem_cons.mpr hc)
    have hrest : ∀ b ∈ hs, ∀ p, (n.unbind a).wire? b p = none := fun b hb p => by
      rw [wire?, link?, endpoint?_unbind]
      split
      · rfl
      · exact hidle b (List.mem_cons_of_mem a hb) p
    rw [List.foldl_cons, close_of_idle (hidle a List.mem_cons_self), ih hrest hc, endpoint?_unbind,
      if_neg (Ne.symm hca)]

/-- What endpoints that are shut down come to at any end. They have no links themselves any more. -/
theorem Sound.partings (h : n.Sound) (hs : List Address) (reason : String) :
    let n' := hs.foldl (fun n a => n.shutdown a reason) n
    (∀ c r, Parting n n' c r reason) ∧ ∀ a ∈ hs, ∀ p, n'.wire? a p = none := by
  induction hs generalizing n with
  | nil => exact ⟨fun c r => .refl n c r reason, nofun⟩
  | cons a hs ih =>
    obtain ⟨-, hsound, -, hnone⟩ := (h.deafen a).2.severAll a reason
    obtain ⟨hparting, hidle⟩ := ih hsound
    obtain ⟨hcut, -⟩ := hsound.shutdownAll hs reason
    refine ⟨fun c r => (h.parting_shutdown a reason c r).trans (hparting c r), fun b hb p => ?_⟩
    rcases List.mem_cons.mp hb with rfl | hb
    · exact hcut.wire?_eq_none (hnone p)
    · exact hidle b hb p

end Network

variable {δ : Type}

namespace Manager
variable {m m' : Manager Address δ} {n n' : Network} {reason : String}

/-! ### Shutting down -/

/-- The application is told of the connections one after another. -/
theorem events_teardownAll {cs : List Connection} (hlive : ∀ c ∈ cs, m.connections.get? c.id = some c)
    (hnodup : (cs.map (·.id)).Nodup) (reason : String) :
    ((cs.map (·.id)).foldl (fun m id => m.teardown id reason) m).events =
      m.events ++ cs.filterMap (m.farewell · reason) := by
  induction cs generalizing m with
  | nil => exact (List.append_nil _).symm
  | cons c cs ih =>
    obtain ⟨hnew, hnodup⟩ := List.nodup_cons.mp hnodup
    have hrest : ∀ d ∈ cs, (m.teardown c.id reason).connections.get? d.id = some d := fun d hd => by
      have hne : c.id ≠ d.id := fun heq => hnew (List.mem_map.mpr ⟨d, hd, heq.symm⟩)
      rw [get?_teardown, if_neg hne]
      exact hlive d (List.mem_cons_of_mem c hd)
    have hfarewell : (m.teardown c.id reason).farewell = m.farewell := by
      funext d why
      rw [farewell, isServer, (teardown_keeps m c.id reason).2.2]
      rfl
    rw [List.map_cons, List.foldl_cons, ih hrest hnodup, hfarewell, events_teardown (hlive c List.mem_cons_self),
      List.append_assoc, List.filterMap_cons]
    cases m.farewell c reason <;> rfl

/-- What comes of a manager and its network when it shuts down for a reason. -/
structure Closes (m : Manager Address δ) (n : Network) (reason : String) (m' : Manager Address δ) (n' : Network) :
    Prop where
  stopped : m'.isRunning = false
  settings : m'.settings = m.settings
  live : m'.connections.live = []
  pending : m'.pendingHandshakes = 0
  /-- Each connection that there was stands in the list once, under its id. -/
  listed : (m.connections.live.map (·.id)).Nodup ∧
    ∀ id c, m.connections.get? id = some c ↔ c ∈ m.connections.live ∧ c.id = id
  events : m'.events = m.events ++ m.connections.live.filterMap fun c =>
    match c.channel with
    | some ch => some (.disconnected c.id ch.sessionName reason)
    | none => if m.isServer then none else some (.connectFailed c.remote reason)
  /-- The other end of a link is told at once, and told nothing else. -/
  severed : ∀ {a p l}, a ∈ m.transports → n.link? a p = some l →
    n'.link? a p = none ∧ n'.link? l.remote l.remotePeer = none ∧
      Inserts (.disconnected l.remotePeer reason) (n.mail l.remote l.remotePeer) (n'.mail l.remote l.remotePeer) ∧
      ∃ x ∈ n'.inbox l.remote, x.event = .disconnected l.remotePeer reason ∧ x.release ≤ n'.clock
  freed : ∀ a, n'.isBound a = true ↔ n.isBound a = true ∧ a ∉ m.transports

theorem settings_teardownAll (m : Manager Address δ) (ids : List ConnectionId) (reason : String) :
    (ids.foldl (fun m id => m.teardown id reason) m).settings = m.settings := by
  have hone : ∀ (m : Manager Address δ) id, (m.teardown id reason).settings = m.settings := fun m id => by
    unfold teardown
    dsimp only
    split
    · rfl
    · split <;> rfl
  induction ids generalizing m with
  | nil => rfl
  | cons id ids ih => exact (ih _).trans (hone m id)

theorem pendingHandshakes_eq_zero (hm : m.Sound) (hnone : ∀ id, m.connections.get? id = none) :
    m.pendingHandshakes = 0 := by
  have hkeys : m.pending.keys = [] := List.eq_nil_iff_forall_not_mem.mpr fun id => Assoc.get?_eq_none.mp <|
    Option.eq_none_iff_forall_ne_some.mpr fun f hf => by
      obtain ⟨c, hc⟩ := (hm id).awaited hf
      cases (hnone id).symm.trans hc
  exact (List.length_map _).symm.trans (congrArg List.length hkeys)

/-- A link at a transport is gone at both ends, and the other end is told why. -/
theorem Apart.severed (h : m.Apart n) {a : Address} {p : Peer} {l : Link} (ha : a ∈ m.transports)
    (hl : n.link? a p = some l) (reason : String) :
    let n' := m.transports.foldl Network.close (m.transports.foldl (fun n a => n.shutdown a reason) n)
    n'.link? a p = none ∧ n'.link? l.remote l.remotePeer = none ∧
      Inserts (.disconnected l.remotePeer reason) (n.mail l.remote l.remotePeer) (n'.mail l.remote l.remotePeer) ∧
      ∃ x ∈ n'.inbox l.remote, x.event = .disconnected l.remotePeer reason ∧ x.release ≤ n'.clock := by
  obtain ⟨hparting, hidle⟩ := h.net.partings m.transports reason
  obtain ⟨hcut, hsound, -⟩ := h.net.shutdownAll m.transports reason
  generalize m.transports.foldl (fun n a => n.shutdown a reason) n = n₁ at hparting hidle hcut hsound ⊢
  obtain ⟨hcut', hsound', -⟩ := hsound.closeAll m.transports
  have hnear := Network.wire?_of_link? hl
  have hfar := h.net.paired hnear
  have hgone : n₁.wire? l.remote l.remotePeer = none := Option.eq_none_iff_forall_ne_some.mpr fun w hw => by
    obtain rfl := Option.some.inj (hfar.symm.trans (hcut.kept hw).1)
    cases (hidle a ha p).symm.trans (hsound.paired hw)
  have htold := (hparting l.remote l.remotePeer).told hfar hgone
  have hsame := Network.endpoint?_closeAll (n := n₁) hidle (h.foreign ha hnear)
  generalize m.transports.foldl Network.close n₁ = n₂ at hcut' hsound' hsame ⊢
  have hcold : ∀ {b q}, n₁.wire? b q = none → n₂.link? b q = none := fun hnone =>
    Option.map_eq_none_iff.mp (hcut'.wire?_eq_none hnone)
  have hinbox : n₂.inbox l.remote = n₁.inbox l.remote := by
    rw [Network.inbox, hsame, Network.inbox]
  rw [← Network.mail_congr hinbox] at htold
  obtain ⟨us, vs, -, hmail, -⟩ := id htold
  obtain ⟨-, x, hx, hevent⟩ := mem_mailFor.mp (hmail ▸ List.mem_append_right us List.mem_cons_self)
  exact ⟨hcold (hidle a ha p), hcold hgone, htold, x, hx, hevent, hsound'.prompt hx (by rw [hevent]; rfl)⟩

theorem Apart.closes (h : m.Apart n) (hrun : m.isRunning = true) (reason : String) :
    m.Closes n reason (m.shutdown n reason).1 (m.shutdown n reason).2 := by
  have hadv := shutdown_advances h.sound n reason
  rw [shutdown_of_running hrun] at hadv ⊢
  have hnone := hadv.sound.get?_of_not_running Bool.false_ne_true
  have hnodup := ConnectionTable.nodup_ids fun {id c} => (h.sound id).own
  have hlisted : ∀ id c, m.connections.get? id = some c ↔ c ∈ m.connections.live ∧ c.id = id := fun id c => by
    constructor
    · intro hc
      exact ⟨ConnectionTable.mem_live.mpr ⟨id, hc⟩, (h.sound id).own hc⟩
    · rintro ⟨hc, rfl⟩
      obtain ⟨id, hid⟩ := ConnectionTable.mem_live.mp hc
      rwa [(h.sound id).own hid]
  obtain ⟨-, hdown, hbound⟩ := h.net.shutdownAll m.transports reason
  exact {
    stopped := rfl
    settings := settings_teardownAll m _ reason
    live := ConnectionTable.live_eq_nil hnone
    pending := pendingHandshakes_eq_zero hadv.sound hnone
    listed := ⟨hnodup, hlisted⟩
    events := events_teardownAll (fun c hc => (hlisted c.id c).mpr ⟨hc, rfl⟩) hnodup reason
    severed := fun ha hl => h.severed ha hl reason
    freed := fun a => by rw [(hdown.closeAll m.transports).2.2, hbound] }

/-! ### Turns -/

theorem partake_advances (hm : m.Sound) (n : Network) (t : Turn δ) : Advances m (partake (m, n) t).1 := by
  unfold partake attend
  split
  · split
    · exact .refl hm
    · cases t with
      | call c hin => exact perform_advances hm n c
      | act x => exact .refl hm
  · exact .refl hm

theorem partakes_advances {s : Manager Address δ × Network} (hs : s.1.Sound) (ts : List (Turn δ)) :
    Advances s.1 (ts.foldl partake s).1 :=
  List.foldlRecOn (motive := fun r => Advances s.1 r.1) ts partake (.refl hs) fun r hr t _ =>
    hr.trans (partake_advances hr.sound r.2 t)

/-- Whatever a manager was called upon to do before, and whatever others have done on its network: if it runs, and shuts
    down for any reason, no connection is left, the application is told of each, the links at its transports are gone
    with word to the other ends, and its addresses are free. A server was started at some moment and has run since; at
    any later moment at which it does not run it can be started again, if its settings have the addresses that they had
    then and nobody has bound these. The ids that were given before are never again those of connections, nor given
    again. -/
theorem partake_shutdown (side : Side) (settings : Settings) (luck : Nat → Luck) (ts : List (Turn δ))
    (reason : String) :
    let state := fun ts => List.foldl partake (create side settings, Network.create luck) ts
    let s := state ts
    let r := s.1.shutdown s.2 reason
    s.1.isRunning = true →
      s.1.Closes s.2 reason r.1 r.2 ∧
      (side = .server → ∃ earlier later, ts = earlier ++ .call .start trivial :: later ∧
        (state earlier).1.isRunning = false ∧
        (∀ ks, ks <+: later → (state (earlier ++ .call .start trivial :: ks)).1.isRunning = true) ∧
        ∀ more : List (Turn δ),
          let u := more.foldl partake r
          u.1.isRunning = false → u.1.settings.addresses = (state earlier).1.settings.addresses →
          (∀ a ∈ s.1.transports, u.2.isBound a = false) →
          ∃ n', u.1.start u.2 = (.ok (), { u.1 with transports := s.1.transports }, n') ∧
            ∀ a ∈ s.1.transports, n'.listens a = true) ∧
      (∀ earlier, earlier <+: ts → (state earlier).1.connections.nextId.val ≤ s.1.connections.nextId.val ∧
        ∀ id, (state earlier).1.connections.isLive id = true → id.val < s.1.connections.nextId.val) ∧
      ∀ more : List (Turn δ),
        let u := more.foldl partake r
        s.1.connections.nextId.val ≤ u.1.connections.nextId.val ∧
          ∀ id, id.val < s.1.connections.nextId.val → u.1.connections.isLive id = false := by
  intro state s r hrun
  have h : s.1.Apart s.2 := apart_partake side settings luck ts
  have hcloses : s.1.Closes s.2 reason r.1 r.2 := h.closes hrun reason
  have hclosed : Advances s.1 r.1 := shutdown_advances h.sound s.2 reason
  have hnone : ∀ id, r.1.connections.get? id = none :=
    hclosed.sound.get?_of_not_running (by rw [hcloses.stopped]; exact Bool.false_ne_true)
  refine ⟨hcloses, ?_, fun earlier hearlier => ?_, fun more => ?_⟩
  · rintro rfl
    have hattends : s.1.Attends s.2 :=
      partakes_induction (P := Attends) (Attends.create settings luck) (fun h => h.partake) ts
    obtain ⟨earlier, later, hts, hidle, hsince, haddrs⟩ := exists_start settings luck ts hrun
    refine ⟨earlier, later, hts, hidle, hsince, fun more hstopped hsame hfree => ?_⟩
    have hlater : (more.foldl partake r).1.Attends (more.foldl partake r).2 :=
      partakes_induction (P := Attends) (hattends.shutdown reason) (fun h => h.partake) more
    obtain ⟨n', hstart, hlistens⟩ := start_of_free hlater.server hstopped (hsame.trans haddrs) hlater.net hfree h.nodup
    exact ⟨n', hstart, fun a ha => (hlistens a).mpr (Or.inr ha)⟩
  · obtain ⟨later, rfl⟩ := hearlier
    have hsound : (state earlier).1.Sound := (partakes_advances (sound_create side settings) earlier).sound
    have hgrown := (partakes_advances hsound later).ages.grown
    rw [← List.foldl_append] at hgrown
    refine ⟨hgrown, fun id hlive => ?_⟩
    obtain ⟨c, hc⟩ := Option.isSome_iff_exists.mp hlive
    exact Nat.lt_of_lt_of_le (ConnectionTable.lt_of_get? hc) hgrown
  · have hlater := partakes_advances hclosed.sound more
    refine ⟨Nat.le_trans hclosed.ages.grown hlater.ages.grown, fun id hid => ?_⟩
    have hdead := hlater.ages.dead ⟨Nat.lt_of_lt_of_le hid hclosed.ages.grown, hnone id⟩
    rw [ConnectionTable.isLive, hdead]
    rfl

/-- A peer is served, and another has just asked for a link. -/
def serving : List (Turn Unit) :=
  let server : Address := ⟨Host.loopback, Settings.defaultPort⟩
  let peer : Address := Network.loopback Network.firstPort
  let other : Address := Network.loopback (Network.firstPort + 1)
  [.call .start trivial,
    .act .bindAny,
    .act (.connect peer server),
    .call .process trivial,
    .act (.send peer ⟨1⟩ (textBytes "ann") .ordered),
    .call .process trivial,
    .act (.send peer ⟨1⟩ (textBytes "ok") .ordered),
    .call .process trivial,
    .act .bindAny,
    .act (.connect other server)]

/-- The peer that has only asked is told as well, and the server can be started again at once. -/
theorem partake_shutdown_serving :
    let settings := { Settings.initial with hosts := "127.0.0.1" }
    let s := serving.foldl partake (create .server settings, Network.create fun _ => ⟨0, 0, 0⟩)
    let r := s.1.shutdown s.2 "bye"
    s.1.isRunning = true ∧ s.1.Closes s.2 "bye" r.1 r.2 ∧
      r.1.events.getLast? = some (.disconnected ⟨0⟩ "ann" "bye") ∧
      r.2.mail (Network.loopback (Network.firstPort + 1)) ⟨3⟩ = [.disconnected ⟨3⟩ "bye"] ∧
      ∃ n', r.1.start r.2 = (.ok (), { r.1 with transports := s.1.transports }, n') := by
  intro settings
  have hclosing := partake_shutdown .server settings (fun _ => ⟨0, 0, 0⟩) serving "bye"
  dsimp only at hclosing ⊢
  -- The state has a name of its own, so that it is evaluated only where it has to be.
  generalize hs : serving.foldl partake (create .server settings, Network.create fun _ => ⟨0, 0, 0⟩) = s at hclosing ⊢
  have hrun : s.1.isRunning = true := by
    rw [← hs]
    decide +kernel
  have hsettings : s.1.settings = settings := by
    rw [← hs]
    decide +kernel
  obtain ⟨hcloses, hserver, -⟩ := hclosing hrun
  obtain ⟨earlier, later, hts, -, -, hagain⟩ := hserver rfl
  have hfirst : earlier = [] := by
    cases earlier with
    | nil => rfl
    | cons t earlier =>
      have hmem : Turn.call .start trivial ∈ serving.tail := by
        rw [hts]
        simp
      simp only [serving, List.tail_cons, List.mem_cons, List.not_mem_nil, reduceCtorEq, false_or, or_false] at hmem
      rcases hmem with h | h | h <;> cases h
  subst hfirst
  obtain ⟨n', hstart, -⟩ :=
    hagain [] hcloses.stopped (congrArg Settings.addresses (hcloses.settings.trans hsettings)) fun a ha =>
      eq_false_of_ne_true fun hb => ((hcloses.freed a).mp hb).2 ha
  refine ⟨hrun, hcloses, ?_, ?_, n', hstart⟩ <;> rw [← hs] <;> decide +kernel

end Manager
end StateSync
