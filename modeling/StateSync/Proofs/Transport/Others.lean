import StateSync.Proofs.Transport.Acts

/-! What others on a network can do to the ends at some addresses, while they act anywhere else (`Sound.spares`): links
    among these ends are out of their reach; a link to one of theirs they may grant or take down, with word to its
    other end; and they may ask for new ones. -/

namespace StateSync.Network
variable {n n' n'' : Network} {O : Address → Prop} {a b c d : Address} {p q r : Peer} {st : LinkState} {w : Wire}

/-- The address at which an act is done. -/
def Act.site : Act → Option Address
  | .bind addr | .start addr | .shutdown addr _ | .connect addr _ | .approve addr _ | .disconnect addr _ _
  | .send addr _ _ _ | .poll addr | .setImpairment addr _ | .setRateLimit addr _ | .close addr => some addr
  | .bindAny | .elapse _ => none

/-- An act that is done at none of some addresses. -/
def Act.Elsewhere (x : Act) (O : Address → Prop) : Prop := ∀ a, x.site = some a → ¬ O a

/-- What may happen to the ends at the addresses in `O` while others act. -/
structure Spares (n n' : Network) (O : Address → Prop) : Prop where
  sound : n'.Sound
  isBound : ∀ {a}, O a → n.isBound a = true → n'.isBound a = true
  /-- A link between two of the addresses. -/
  kept : ∀ {a p b q st}, O a → O b → n.wire? a p = some ⟨b, q, st⟩ →
    n'.wire? a p = some ⟨b, q, st⟩ ∧ n'.notes a p = n.notes a p
  lost : ∀ {a p w}, O a → n.wire? a p = some w → n'.wire? a p = none → .down ∈ n'.notes a p
  down : ∀ {a p}, O a → .down ∈ n.notes a p → .down ∈ n'.notes a p
  asks : ∀ {a p w}, O a → n'.wire? a p = some w → .asks ∈ n.notes a p → .asks ∈ n'.notes a p
  leads : ∀ {a p b q st}, O a → n'.wire? a p = some ⟨b, q, st⟩ →
    (∃ st', n.wire? a p = some ⟨b, q, st'⟩) ∨ (¬ O b ∧ n.wire? a p = none ∧ .asks ∈ n'.notes a p)

/-- An end whose link does not lead to an address is not at any of the links of that address. -/
theorem Sound.not_atLink (h : n.Sound) (hc : c ≠ a) (hw : ∀ q st, n.wire? c r ≠ some ⟨a, q, st⟩) (p : Peer) :
    ¬ AtLink n a p c r := by
  rintro (⟨rfl, -⟩ | ⟨st, hlink⟩)
  · exact hc rfl
  · exact hw p st (h.paired hlink)

namespace Spares

theorem of_same (hn : n'.Sound) (hbound : ∀ {a}, n.isBound a = true → n'.isBound a = true)
    (hwire : ∀ a p, n'.wire? a p = n.wire? a p) (hnotes : ∀ a p, n'.notes a p = n.notes a p) : Spares n n' O where
  sound := hn
  isBound _ hb := hbound hb
  kept _ _ hw := ⟨(hwire _ _).trans hw, hnotes _ _⟩
  lost _ hw hnone := (nomatch ((hwire _ _).symm.trans hnone).symm.trans hw)
  down _ hd := by rwa [hnotes]
  asks _ _ ha := by rwa [hnotes]
  leads _ hw := Or.inl ⟨_, (hwire _ _).symm.trans hw⟩

theorem refl (h : n.Sound) : Spares n n O := .of_same h id (fun _ _ => rfl) fun _ _ => rfl

theorem trans (h : Spares n n' O) (h' : Spares n' n'' O) : Spares n n'' O where
  sound := h'.sound
  isBound ha hb := h'.isBound ha (h.isBound ha hb)
  kept ha hb hw := by
    obtain ⟨hw', hnotes⟩ := h.kept ha hb hw
    obtain ⟨hw'', hnotes'⟩ := h'.kept ha hb hw'
    exact ⟨hw'', hnotes'.trans hnotes⟩
  lost {a p w} ha hw hnone := by
    cases hw' : n'.wire? a p with
    | none => exact h'.down ha (h.lost ha hw hw')
    | some w' => exact h'.lost ha hw' hnone
  down ha hd := h'.down ha (h.down ha hd)
  asks {a p w} ha hw hask := by
    rcases h'.leads (b := w.remote) (q := w.remotePeer) ha hw with ⟨st, hw'⟩ | ⟨-, -, hask'⟩
    · exact h'.asks ha hw (h.asks ha hw' hask)
    · exact hask'
  leads {a p b q st} ha hw := by
    rcases h'.leads ha hw with ⟨st', hw'⟩ | ⟨hb, hnone, hask⟩
    · exact (h.leads ha hw').imp_right fun ⟨hb, hnone, hask⟩ => ⟨hb, hnone, h'.asks ha hw hask⟩
    · cases hw₀ : n.wire? a p with
      | none => exact Or.inr ⟨hb, rfl, hask⟩
      | some w =>
        -- An end that is told of a disconnection never has a link again.
        exact (nomatch (h'.sound.severed (h'.down ha (h.lost ha hw₀ hnone))).symm.trans hw)

theorem of_quiet (h : n.Sound) (hq : Quiet n n') : Spares n n' O :=
  .of_same (h.quiet hq) (fun hb => (hq.isBound _).trans hb) hq.wire? hq.notes

/-- Somebody else acts at one end of a link. -/
theorem of_deals (h : n.Sound) (ha : ¬ O a) (hd : Deals n n' a p)
    (hasks : ∀ {b q w}, n'.wire? b q = some w → .asks ∈ n.notes b q → ¬ (b = a ∧ q = p) → .asks ∈ n'.notes b q) :
    Spares n n' O := by
  have hne : ∀ {c}, O c → c ≠ a := fun hc heq => ha (heq ▸ hc)
  have haway : ∀ {c r d s st}, O c → O d → n.wire? c r = some ⟨d, s, st⟩ → ¬ AtLink n a p c r := by
    intro c r d s st hc hd' hw
    refine h.not_atLink (hne hc) (fun q st' hw' => ?_) p
    obtain ⟨rfl, -⟩ := wire_inj hw hw'
    exact ha hd'
  have hcold : ∀ {c r}, O c → n.wire? c r = none → ¬ AtLink n a p c r := fun {c r} hc hnone =>
    h.not_atLink (hne hc) (fun _ _ hw => (nomatch hnone.symm.trans hw)) p
  refine ⟨hd.sound, fun {c} _ hb => (hd.alike.isBound c).trans hb, fun {c r d s st} hc hd' hw => ?_,
    fun {c r w} hc hw hnone => ?_, fun {c r} hc hdown => ?_, fun {c r w} hc hw hask => ?_, fun {c r d s st} hc hw => ?_⟩
  · have hfar := haway hc hd' hw
    exact ⟨(hd.alike.wire? hfar).trans hw, hd.alike.notes hfar⟩
  · by_cases hlink : AtLink n a p c r
    · rcases hlink with ⟨heq, -⟩ | ⟨st, hw'⟩
      · exact absurd heq (hne hc)
      · exact hd.down_far hw' hnone
    · exact (nomatch (hd.alike.wire? hlink).symm.trans hnone |>.symm.trans hw)
  · rw [hd.alike.notes (hcold hc (h.severed hdown))]
    exact hdown
  · exact hasks hw hask fun heq => hne hc heq.1
  · left
    by_cases hlink : AtLink n a p c r
    · rcases hlink with ⟨heq, -⟩ | ⟨st₀, hw₀⟩
      · exact absurd heq (hne hc)
      · -- The link leads where it led.
        cases hnear : n'.wire? a p with
        | none => exact (nomatch (hd.told hw₀ hnear).1.symm.trans hw)
        | some w =>
          obtain ⟨c', r', st₁⟩ := w
          obtain ⟨st₂, hw₂⟩ := hd.leads hnear
          obtain ⟨rfl, rfl, -⟩ := wire_inj hw₀ hw₂
          obtain ⟨rfl, rfl, -⟩ := wire_inj hw (hd.sound.paired hnear)
          exact ⟨st₀, h.paired hw₀⟩
    · exact ⟨st, hd.alike.wire? hlink ▸ hw⟩

/-- Somebody else takes links down. What does not lead to them is not noticed. -/
theorem of_cut (h : n.Sound) (hn : n'.Sound) (hcut : Cut n n') (hbound : ∀ {b}, O b → n'.isBound b = n.isBound b)
    (ha : ¬ O a) (hsame : ∀ {c r}, c ≠ a → (∀ q st, n.wire? c r ≠ some ⟨a, q, st⟩) →
      n'.wire? c r = n.wire? c r ∧ n'.notes c r = n.notes c r) : Spares n n' O := by
  refine ⟨hn, fun hc hb => (hbound hc).trans hb, fun {c r d s st} hc hd hw => ?_, fun {c r w} hc hw hnone => ?_,
    fun {c r} hc hdown => ?_, fun {c r w} hc hw hask => (hcut.kept hw).2 ▸ hask,
    fun _ hw => Or.inl ⟨_, (hcut.kept hw).1⟩⟩
  · obtain ⟨hwire, hnotes⟩ := hsame (fun heq => ha (heq ▸ hc)) fun q st' hw' => by
      obtain ⟨rfl, -⟩ := wire_inj hw hw'
      exact ha hd
    exact ⟨hwire.trans hw, hnotes⟩
  · exact hcut.lost ((hbound hc).trans (isBound_of_wire? hw)) hw hnone
  · have hnone := h.severed hdown
    obtain ⟨-, hnotes⟩ := hsame (fun heq => ha (heq ▸ hc)) fun q st' hw' => (nomatch hnone.symm.trans hw')
    rwa [hnotes]

end Spares

/-! ### Taking down an endpoint -/

/-- To take down the links of an address is not noticed at the ends whose links lead elsewhere. -/
theorem Sound.foldl_sever_same (h : n.Sound) (ps : List Peer) (reason : String) (hc : c ≠ a)
    (hw : ∀ q st, n.wire? c r ≠ some ⟨a, q, st⟩) :
    let n' := ps.foldl (fun n p => n.sever a p reason) n
    n'.wire? c r = n.wire? c r ∧ n'.notes c r = n.notes c r := by
  induction ps generalizing n with
  | nil => exact ⟨rfl, rfl⟩
  | cons p ps ih =>
    have hone := h.severs a p reason
    have hne := h.not_atLink hc hw p
    have hwire := hone.alike.wire? hne
    obtain ⟨hwire', hnotes'⟩ := ih hone.sound fun q st => hwire ▸ hw q st
    exact ⟨hwire'.trans hwire, hnotes'.trans (hone.alike.notes hne)⟩

theorem Sound.severAll_same (h : n.Sound) (reason : String) (hc : c ≠ a)
    (hw : ∀ q st, n.wire? c r ≠ some ⟨a, q, st⟩) :
    (n.severAll a reason).wire? c r = n.wire? c r ∧ (n.severAll a reason).notes c r = n.notes c r := by
  unfold Network.severAll
  split
  · exact ⟨rfl, rfl⟩
  · exact h.foldl_sever_same _ reason hc hw

theorem Sound.spares_shutdown (h : n.Sound) (ha : ¬ O a) (reason : String) : Spares n (n.shutdown a reason) O := by
  let f : Endpoint → Endpoint := fun e => { e with listening := false }
  have hwire : ∀ b q, (n.deafen a).wire? b q = n.wire? b q := wire?_update (f := f) (fun _ => rfl) n a
  have hinbox : ∀ b, (n.deafen a).inbox b = n.inbox b := inbox_update (f := f) (fun _ => rfl) n a
  obtain ⟨hdeaf, hsound⟩ := h.deafen a
  obtain ⟨hcut, hsound', hbound, -⟩ := hsound.severAll a reason
  refine .of_cut h hsound' (hdeaf.trans hcut) (fun _ => (hbound _).trans (isBound_update ..)) ha fun {c r} hc hw => ?_
  obtain ⟨hwire', hnotes'⟩ := hsound.severAll_same reason hc fun q st => hwire c r ▸ hw q st
  refine ⟨hwire'.trans (hwire c r), hnotes'.trans ?_⟩
  rw [notes, hinbox, notes]

theorem Sound.spares_close (h : n.Sound) (ha : ¬ O a) : Spares n (n.close a) O := by
  obtain ⟨hcut, hsound, hbound⟩ := h.close a
  refine .of_cut h hsound hcut (fun {b} hb => ?_) ha fun {c r} hc hw => ?_
  · rw [hbound, if_neg]
    rintro rfl
    exact ha hb
  · obtain ⟨hwire, hnotes⟩ := h.severAll_same "endpoint closed" hc hw
    have hendpoint : (n.close a).endpoint? c = (n.severAll a "endpoint closed").endpoint? c :=
      (endpoint?_unbind ..).trans (if_neg (Ne.symm hc))
    constructor
    · rw [← hwire, wire?, link?, hendpoint, wire?, link?]
    · rw [← hnotes, notes, inbox, hendpoint, notes, inbox]

/-! ### Asking for a link -/

theorem Asked.spares (ha : ¬ O a) (hn : Asked n n' a p b q) : Spares n n' O := by
  have hold : ∀ {c r w}, O c → n.wire? c r = some w → ¬ ((c = a ∧ r = p) ∨ (c = b ∧ r = q)) := by
    rintro c r w hc hw (⟨rfl, -⟩ | ⟨rfl, rfl⟩)
    · exact ha hc
    · exact (nomatch hn.fresh.2.symm.trans hw)
  have hnote : ∀ {c r note}, O c → note ∈ n.notes c r → ¬ ((c = a ∧ r = p) ∨ (c = b ∧ r = q)) := by
    rintro c r note hc hmem (⟨rfl, -⟩ | ⟨rfl, rfl⟩)
    · exact ha hc
    · rw [hn.fresh.1] at hmem
      cases hmem
  refine ⟨hn.sound, fun _ hb => (hn.alike.isBound _).trans hb, fun {c r d s st} hc hd hw => ?_,
    fun {c r w} hc hw hnone => ?_, fun {c r} hc hdown => ?_, fun {c r w} hc _ hask => ?_,
    fun {c r d s st} hc hw => ?_⟩
  · have hne := hold hc hw
    exact ⟨(hn.alike.wire? hne).trans hw, hn.alike.notes hne⟩
  · exact (nomatch ((hn.alike.wire? (hold hc hw)).symm.trans hnone).symm.trans hw)
  · rwa [hn.alike.notes (hnote hc hdown)]
  · rwa [hn.alike.notes (hnote hc hask)]
  · by_cases hend : (c = a ∧ r = p) ∨ (c = b ∧ r = q)
    · rcases hend with ⟨rfl, -⟩ | ⟨rfl, rfl⟩
      · exact absurd hc ha
      · -- The new link leads to whoever has asked for it.
        obtain ⟨rfl, -, -⟩ := wire_inj hw (hn.sound.paired hn.wire)
        exact Or.inr ⟨ha, hn.fresh.2, hn.asks ▸ List.mem_singleton_self _⟩
    · exact Or.inl ⟨st, hn.alike.wire? hend ▸ hw⟩

/-! ### All acts -/

theorem Sound.asks_approve (h : n.Sound) (hask : .asks ∈ n.notes b q) : .asks ∈ (n.approve a p).2.notes b q := by
  cases hw : n.wire? a p with
  | none => rwa [approve_none hw]
  | some w =>
    obtain ⟨c, r, st⟩ := w
    cases st with
    | connected => rwa [approve_connected hw]
    | awaitingApproval =>
      obtain ⟨n', heq, hdeals, -, hnear, hfar⟩ := h.approve hw
      rw [heq]
      by_cases hlink : AtLink n a p b q
      · rcases hlink with ⟨rfl, rfl⟩ | ⟨st', hw'⟩
        · exact hnear.mem_iff.mpr (List.mem_cons_of_mem _ hask)
        · obtain ⟨rfl, rfl, -⟩ := wire_inj hw hw'
          exact hfar.mem_iff.mpr (List.mem_cons_of_mem _ hask)
      · rwa [hdeals.alike.notes hlink]

theorem asks_send (bytes : Bytes) (d : Delivery) (hask : .asks ∈ n.notes b q) :
    .asks ∈ (n.send a p bytes d).2.notes b q := by
  rcases n.send_cases a p bytes d with hq | ⟨c, r, -, release, -, hq⟩
  · rwa [hq.notes]
  · rw [hq.notes]
    exact mem_notes_post hask

/-- Whatever is done elsewhere spares the ends at the addresses in `O`. -/
theorem Sound.spares (h : n.Sound) (x : Act) (hx : x.Elsewhere O) : Spares n (n.act x) O := by
  cases x with
  | bind addr =>
    by_cases hbound : n.isBound addr = true
    · rw [Network.act, Network.bind, if_pos hbound]
      exact .of_quiet h (.refl n)
    · obtain ⟨-, hgrown, -⟩ := h.bind (if_neg hbound)
      rw [Network.act, Network.bind, if_neg hbound]
      exact .of_same hgrown.sound (fun hb => (hgrown.isBound _).mpr (Or.inl hb)) hgrown.wire? hgrown.notes
  | bindAny =>
    cases hbind : n.bindAny with
    | none =>
      rw [Network.act, hbind]
      exact .of_quiet h (.refl n)
    | some r =>
      rw [Network.act, hbind]
      obtain ⟨hgrown, -⟩ := h.bindAny hbind
      exact .of_same hgrown.sound (fun hb => (hgrown.isBound _).mpr (Or.inl hb)) hgrown.wire? hgrown.notes
  | start addr =>
    let f : Endpoint → Endpoint := fun e => { e with listening := true }
    have hsound := h.start addr
    rw [Network.act]
    unfold Network.start at hsound ⊢
    split
    · rename_i hb
      rw [if_pos hb] at hsound
      refine .of_same hsound (fun hb => (isBound_update ..).trans hb) (wire?_update (f := f) (fun _ => rfl) n addr)
        fun b q => ?_
      rw [notes, inbox_update (f := f) fun _ => rfl, notes]
    · exact .of_quiet h (.refl n)
  | shutdown addr reason => exact h.spares_shutdown (hx addr rfl) reason
  | connect addr remote =>
    rw [Network.act]
    split
    · rename_i hbound
      rcases n.connect_cases addr remote with ⟨e, heq⟩ | ⟨hlistens, hne⟩
      · rw [heq]
        exact .of_quiet h (.refl n)
      · obtain ⟨p, n', q, heq, hasked⟩ := h.connect hbound hlistens hne
        rw [heq]
        exact hasked.spares (hx addr rfl)
    · exact .of_quiet h (.refl n)
  | approve addr peer =>
    exact .of_deals h (hx addr rfl) (h.deals_approve addr peer) fun _ hask _ => h.asks_approve hask
  | disconnect addr peer reason =>
    have hsevers := h.severs addr peer reason
    refine .of_deals h (hx addr rfl) (.of_severs hsevers) fun {b q w} hw hask _ => ?_
    exact (hsevers.kept hw).2 ▸ hask
  | send addr peer bytes d =>
    exact .of_deals h (hx addr rfl) (h.deals_send addr peer bytes d) fun _ hask _ => asks_send bytes d hask
  | poll addr =>
    rcases hpoll : n.poll addr with ⟨_ | ev, n'⟩
    · rw [Network.act, hpoll, poll_none hpoll]
      exact .of_quiet h (.refl n)
    · obtain ⟨-, halike, -⟩ := h.poll hpoll
      rw [Network.act, hpoll]
      exact .of_deals h (hx addr rfl) (.of_poll h hpoll) fun _ hask hne => by rwa [halike.notes hne]
  | setImpairment addr i =>
    exact .of_quiet h (.update (f := fun e => { e with impairment := i }) (fun _ => ⟨rfl, rfl, rfl⟩) n addr)
  | setRateLimit addr limit =>
    exact .of_quiet h (.update (f := fun e => { e with rateLimit := limit }) (fun _ => ⟨rfl, rfl, rfl⟩) n addr)
  | close addr => exact h.spares_close (hx addr rfl)
  | elapse time => exact .of_same (h.elapse time) id (fun _ _ => rfl) fun _ _ => rfl

end StateSync.Network
