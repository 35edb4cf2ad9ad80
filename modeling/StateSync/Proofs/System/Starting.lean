import Mathlib.Data.List.Induction
import StateSync.Proofs.System.Partaking

/-! How a server comes to run. Free addresses, each named once, can all be opened (`openAll_of_free`); and as long as a
    server runs its transports are those at the addresses of the settings that it was started with
    (`exists_start`). -/

namespace StateSync.Manager
open Network (Quiet Grown)

variable {δ : Type} {m : Manager Address δ} {n n' : Network} {a : Address} {addrs opened hs : List Address}

/-! ### Opening transports -/

theorem listens_start (hb : n.isBound a = true) : ∃ n', n.start a = (.ok (), n') ∧
    (∀ b, n'.isBound b = n.isBound b) ∧ ∀ b, n'.listens b = true ↔ n.listens b = true ∨ b = a := by
  refine ⟨_, if_pos hb, Network.isBound_update n a _, fun b => ?_⟩
  rw [Network.listens, Network.endpoint?_update, Network.listens]
  by_cases hab : a = b
  · subst hab
    obtain ⟨e, he⟩ := Option.isSome_iff_exists.mp hb
    rw [if_pos rfl, show n.endpoint? a = some e from he]
    simp
  · rw [if_neg hab]
    simp [Ne.symm hab]

/-- An endpoint that is bound, tuned and started listens, and nothing else is noticed. -/
theorem openOne (hn : n.Sound) (hfree : n.isBound a = false) (s : Settings) : ∃ n₁ n₂, n.bind a = (.ok a, n₁) ∧
    (tune n₁ s a).start a = (.ok (), n₂) ∧ n₂.Sound ∧ (∀ b, n₂.isBound b = true ↔ n.isBound b = true ∨ b = a) ∧
    ∀ b, n₂.listens b = true ↔ n.listens b = true ∨ b = a := by
  obtain ⟨n₁, hbind⟩ : ∃ n₁, n.bind a = (.ok a, n₁) := ⟨_, if_neg (by rw [hfree]; exact Bool.false_ne_true)⟩
  obtain ⟨-, hgrown, hlistens⟩ := hn.bind hbind
  have hquiet : Quiet n₁ (tune n₁ s a) := Network.tune_quiet n₁ s a
  have hbound : (tune n₁ s a).isBound a = true := by
    rw [hquiet.isBound, hgrown.isBound]
    exact Or.inr (List.mem_singleton_self a)
  obtain ⟨n₂, hstart, hsame, hnow⟩ := listens_start hbound
  have hsound : n₂.Sound := by
    have hstarted := (hgrown.sound.quiet hquiet).start a
    rwa [hstart] at hstarted
  refine ⟨n₁, n₂, hbind, hstart, hsound, fun b => ?_, fun b => ?_⟩
  · rw [hsame, hquiet.isBound, hgrown.isBound, List.mem_singleton]
  · rw [hnow, hquiet.listens, hlistens]

theorem openAll_of_free (hn : n.Sound) (hfree : ∀ a ∈ addrs, n.isBound a = false) (hnodup : addrs.Nodup)
    (s : Settings) (opened : List Address) : ∃ n', openAll s n opened addrs = (.ok (opened ++ addrs), n') ∧
      (∀ b, n'.isBound b = true ↔ n.isBound b = true ∨ b ∈ addrs) ∧
      ∀ b, n'.listens b = true ↔ n.listens b = true ∨ b ∈ addrs := by
  induction addrs generalizing n opened with
  | nil => exact ⟨n, by rw [openAll, List.append_nil], fun b => by simp, fun b => by simp⟩
  | cons a addrs ih =>
    obtain ⟨hnew, hnodup⟩ := List.nodup_cons.mp hnodup
    obtain ⟨n₁, n₂, hbind, hstart, hsound, hbound, hlistens⟩ := openOne hn (hfree a List.mem_cons_self) s
    have hrest : ∀ b ∈ addrs, n₂.isBound b = false := fun b hb => eq_false_of_ne_true fun htrue => by
      rcases (hbound b).mp htrue with hold | rfl
      · cases (hfree b (List.mem_cons_of_mem a hb)).symm.trans hold
      · exact hnew hb
    obtain ⟨n', hopen, hbound', hlistens'⟩ := ih hsound hrest hnodup (opened ++ [a])
    refine ⟨n', ?_, fun b => ?_, fun b => ?_⟩
    · have hstart' : Medium.start (tune n₁ s a) a = (.ok (), n₂) := hstart
      simp only [openAll, Medium.bind, hbind, hstart', hopen, List.append_assoc, List.singleton_append]
    · rw [hbound', hbound, List.mem_cons, or_assoc]
    · rw [hlistens', hlistens, List.mem_cons, or_assoc]

theorem openAll_eq_ok {s : Settings} (h : openAll s n opened addrs = (.ok hs, n')) : hs = opened ++ addrs := by
  induction addrs generalizing n opened with
  | nil =>
    obtain ⟨hopened, -⟩ := Prod.mk.inj h
    rw [← Except.ok.inj hopened, List.append_nil]
  | cons a addrs ih =>
    rcases hbind : n.bind a with ⟨e | k, n₁⟩
    · simp only [openAll, Medium.bind, hbind] at h
      cases h
    · have hk : k = a := by
        unfold Network.bind at hbind
        split at hbind
        · cases hbind
        · exact (Except.ok.inj (Prod.mk.inj hbind).1).symm
      subst hk
      rcases hstart : (tune n₁ s k).start k with ⟨e | u, n₂⟩
      · have hstart' : Medium.start (tune n₁ s k) k = (.error e, n₂) := hstart
        simp only [openAll, Medium.bind, hbind, hstart'] at h
        cases h
      · have hstart' : Medium.start (tune n₁ s k) k = (.ok u, n₂) := hstart
        simp only [openAll, Medium.bind, hbind, hstart'] at h
        rw [ih h, List.append_assoc, List.singleton_append]

/-- A server that does not run can be started with addresses that are free. -/
theorem start_of_free (hs : m.isServer = true) (hidle : m.isRunning = false) (haddrs : m.settings.addresses = .ok addrs)
    (hn : n.Sound) (hfree : ∀ a ∈ addrs, n.isBound a = false) (hnodup : addrs.Nodup) : ∃ n',
      m.start n = (.ok (), { m with transports := addrs }, n') ∧
      ∀ b, n'.listens b = true ↔ n.listens b = true ∨ b ∈ addrs := by
  obtain ⟨n', hopen, -, hlistens⟩ := openAll_of_free hn hfree hnodup m.settings []
  refine ⟨n', ?_, hlistens⟩
  unfold start
  rw [hs, hidle, if_neg (by decide), if_neg (by decide), haddrs]
  dsimp only
  rw [hopen]
  rfl

/-! ### Transports while a server runs -/

theorem start_opens (hidle : m.isRunning = false) (hrun : (m.start n).2.1.isRunning = true) :
    m.settings.addresses = .ok (m.start n).2.1.transports := by
  -- Wherever the manager is left as it is, it does not run.
  have hstay : ∀ {P : Prop}, m.isRunning = true → P := fun htrue => nomatch hidle.symm.trans htrue
  unfold start at hrun ⊢
  rw [hidle, if_neg Bool.false_ne_true] at hrun ⊢
  by_cases hs : (!m.isServer) = true
  · rw [if_pos hs] at hrun
    exact hstay hrun
  · rw [if_neg hs] at hrun ⊢
    cases haddrs : m.settings.addresses with
    | error e =>
      rw [haddrs] at hrun
      exact hstay hrun
    | ok addrs =>
      rw [haddrs] at hrun
      dsimp only at hrun ⊢
      rcases hopen : openAll m.settings n [] addrs with ⟨e | hs, n'⟩
      · rw [hopen] at hrun
        exact hstay hrun
      · rw [openAll_eq_ok hopen]
        rfl

theorem start_of_running (hrun : m.isRunning = true) (n : Network) : (m.start n).2 = (m, n) := by
  unfold start
  rw [hrun]
  split <;> rfl

/-- But for its start, a server is left with the transports it had, or with none. -/
theorem transports_perform (hm : m.Sound) (hs : m.isServer = true) (n : Network) {c : Call Network Address δ}
    (hc : c ≠ .start) : (perform (m, n) c).1.transports = m.transports ∨ (perform (m, n) c).1.transports = [] := by
  cases c with
  | start => exact absurd rfl hc
  | connect h remote username =>
    rw [perform, connect, if_pos hs]
    exact Or.inl rfl
  | next i => exact Or.inl (transports_next hm n i)
  | process => exact Or.inl (transports_process hm n)
  | disconnect id reason =>
    rw [perform, disconnect]
    split
    · exact Or.inl (teardown_keeps m id reason).1
    · exact Or.inl rfl
  | shutdown reason =>
    rw [perform, shutdown]
    split
    · exact Or.inl rfl
    · exact Or.inr rfl
  | register t receive =>
    cases hr : m.register t receive with
    | error e =>
      rw [perform, hr]
      exact Or.inl rfl
    | ok m' =>
      obtain ⟨strings, registry, rfl, -⟩ := register_eq hr
      rw [perform, hr]
      exact Or.inl rfl
  | changeSetting key value =>
    obtain ⟨settings, heq⟩ := m.changeSetting_eq n key value
    rw [perform, heq]
    exact Or.inl rfl
  | _ => exact Or.inl rfl

theorem isRunning_congr {m' : Manager Address δ} (h : m'.transports = m.transports) :
    m'.isRunning = m.isRunning := by
  rw [isRunning, h, isRunning]

theorem not_running_of_nil (h : m.transports = []) : m.isRunning = false := by
  rw [isRunning, h]
  rfl

/-- A turn after which a server runs has left it its transports, or is its start. -/
theorem Attends.turn_running (h : m.Attends n) (t : Turn δ) (hrun : (Manager.partake (m, n) t).1.isRunning = true) :
    (Manager.partake (m, n) t).1.transports = m.transports ∨
      m.isRunning = false ∧ t = .call .start trivial ∧ Manager.partake (m, n) t = (m.start n).2 := by
  have hkept : ∀ {c : Call Network Address δ}, c ≠ .start → (Manager.perform (m, n) c).1.isRunning = true →
      (Manager.perform (m, n) c).1.transports = m.transports := fun hc hrun =>
    (transports_perform h.sound h.server n hc).resolve_right fun hnil =>
      nomatch (not_running_of_nil hnil).symm.trans hrun
  unfold Manager.partake attend at hrun ⊢
  by_cases hgiven : t.given.all n.isBound = true
  · rw [if_pos hgiven] at hrun ⊢
    by_cases hsite : t.site.any (· ∈ m.transports) = true
    · rw [if_pos hsite]
      exact Or.inl rfl
    · rw [if_neg hsite] at hrun ⊢
      cases t with
      | act x => exact Or.inl rfl
      | call c hin =>
        cases c with
        | start =>
          cases hidle : m.isRunning with
          | false => exact Or.inr ⟨rfl, rfl, rfl⟩
          | true => exact Or.inl (congrArg (fun s => s.1.transports) (start_of_running hidle n))
        | _ => exact Or.inl (hkept nofun hrun)
  · rw [if_neg hgiven]
    exact Or.inl rfl

/-- A server that runs was started once and has run ever since. Its transports are those at the addresses of the
    settings that it had when it was started. -/
theorem exists_start (settings : Settings) (luck : Nat → Luck) (ts : List (Turn δ)) :
    let state := fun ts => List.foldl partake (create .server settings, Network.create luck) ts
    (state ts).1.isRunning = true → ∃ earlier later, ts = earlier ++ .call .start trivial :: later ∧
      (state earlier).1.isRunning = false ∧ (∀ ks, ks <+: later →
        (state (earlier ++ .call .start trivial :: ks)).1.isRunning = true) ∧
      (state earlier).1.settings.addresses = .ok (state ts).1.transports := by
  intro state
  induction ts using List.reverseRecOn with
  | nil =>
    intro hrun
    cases hrun
  | append_singleton ts t ih =>
    intro hrun
    have hlast : state (ts ++ [t]) = partake (state ts) t := List.foldl_concat ..
    have hattends : (state ts).1.Attends (state ts).2 :=
      partakes_induction (P := Attends) (Attends.create settings luck) (fun h => h.partake) ts
    rcases hattends.turn_running t (hlast ▸ hrun) with hsame | ⟨hidle, rfl, hstart⟩
    · rw [← hlast] at hsame
      obtain ⟨earlier, later, rfl, hidle, hsince, haddrs⟩ := ih ((isRunning_congr hsame).symm.trans hrun)
      refine ⟨earlier, later ++ [t], by simp, hidle, fun ks hks => ?_, hsame ▸ haddrs⟩
      rcases List.prefix_concat_iff.mp hks with rfl | hks
      · simpa using hrun
      · exact hsince ks hks
    · have hopened : state (ts ++ [.call .start trivial]) = ((state ts).1.start (state ts).2).2 := hlast.trans hstart
      refine ⟨ts, [], rfl, hidle, fun ks hks => ?_, ?_⟩
      · rw [List.prefix_nil.mp hks]
        exact hrun
      · rw [hopened] at hrun ⊢
        exact start_opens hidle hrun

end StateSync.Manager
