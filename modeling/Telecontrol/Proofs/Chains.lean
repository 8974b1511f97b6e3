import Telecontrol.Proofs.Bench

/-! # The rhythm of a chain

Whatever happens on a bench, a chain that was accepted keeps one rhythm: its next run waits in the
queue as one task, the worker has that task in its hands, or the chain is over. The next run is
armed for one interval after the start of the present one, before the body begins, so a late worker
pushes later runs back and never catches up. Once cancelled, a chain starts no run any more, and the
task that may still wait disappears when the worker takes it.

Main statements: `Bench.Step.sound` and `Bench.Step.paced` (what one step keeps),
`Bench.Run.paced` (what a run keeps), and `Bench.Run.keepsTime`. -/

namespace Telecontrol

variable {β : Type}

/-! ## The tasks of a chain -/

namespace Task

/-- Whether a task is a run of the chain. -/
def isRunOf (chain : ChainId) (t : Task β) : Bool := t.work.chain? == some chain

/-- A task is a run of a chain exactly when its work is of that chain. -/
theorem isRunOf_iff {chain : ChainId} {t : Task β} :
    t.isRunOf chain = true ↔ t.work.chain? = some chain := beq_iff_eq

/-- Putting a task into the queue changes nothing among the tasks of another kind. -/
theorem filter_place_of_neg {p : Task β → Bool} {t : Task β} (h : p t = false)
    (l : List (Task β)) : (place t l).filter p = l.filter p := by
  induction l with
  | nil => simp [place, h]
  | cons u rest ih =>
    rw [place]
    split
    · rw [List.filter_cons, h]; rfl
    · rw [List.filter_cons, List.filter_cons, ih]

/-- The only task of its kind in the queue, once it is put there. -/
theorem filter_place_of_pos {p : Task β → Bool} {t : Task β} (h : p t = true) {l : List (Task β)}
    (hnone : l.filter p = []) : (place t l).filter p = [t] := by
  have hperm := (place_perm t l).filter p
  rw [List.filter_cons, if_pos h, hnone] at hperm
  exact List.perm_singleton.mp hperm

end Task

namespace Executor

/-- The tasks of a chain in the queue. -/
def entries (e : Executor β) (chain : ChainId) : List (Task β) :=
  e.queue.filter (Task.isRunOf chain)

variable {e e' : Executor β} {x : ChainId}

/-- Work of another chain leaves the tasks of a chain as they are. -/
theorem entries_push_of_ne {work : Work β} (h : work.chain? ≠ some x) (due : Due) :
    (e.push due work).entries x = e.entries x :=
  Task.filter_place_of_neg (Bool.eq_false_iff.mpr fun hx => h (Task.isRunOf_iff.mp hx)) _

/-- Work of a chain without tasks is its only task. -/
theorem entries_push_of_eq {work : Work β} (h : work.chain? = some x) (hnone : e.entries x = [])
    (due : Due) : (e.push due work).entries x = [⟨due, e.nextSeq, work⟩] :=
  Task.filter_place_of_pos (Task.isRunOf_iff.mpr h) hnone

/-- The tasks of a chain before the next task is taken, from those that stay. -/
theorem entries_next? {now : Int} {t : Task β} (h : e.next? now = some (t, e')) :
    e.entries x = if t.work.chain? = some x then t :: e'.entries x else e'.entries x := by
  obtain ⟨-, -, hqueue, -⟩ := (next?_eq_some_iff ..).mp h
  rw [entries, hqueue, List.filter_cons]
  simp only [Task.isRunOf_iff]
  rfl

/-- Handing over a body is no business of a chain. -/
theorem add_keeps {now delay : Int} {body : β} {accepted : Bool}
    (h : e.add now delay body = (e', accepted)) :
    e'.entries x = e.entries x ∧ e'.nextChain = e.nextChain ∧ e'.cancelled = e.cancelled ∧
      e'.running = e.running := by
  cases accepted with
  | true =>
    obtain rfl := add_eq_true h
    exact ⟨entries_push_of_ne (fun hc => by cases hc) _, rfl, rfl, rfl⟩
  | false =>
    obtain rfl := add_eq_false h
    exact ⟨rfl, rfl, rfl, rfl⟩

/-- A chain of which no task waits has no entry. -/
theorem entries_eq_nil_of_unknown (h : ∀ t ∈ e.queue, t.work.chain? ≠ some x) :
    e.entries x = [] :=
  List.filter_eq_nil_iff.mpr fun t ht hx => h t ht (Task.isRunOf_iff.mp hx)

/-- Cancelling a chain cancels no other one. -/
theorem isCancelled_cancel {y : ChainId} :
    (e.cancel y).isCancelled x = true ↔ x = y ∨ e.isCancelled x = true := by
  simp [cancel, isCancelled]

end Executor

namespace Bench

variable {b c : Bench β} {d since : Diary β}

/-! ## What every diary tells of its bench -/

/-- The diary and the bench agree on what was stopped and cancelled, and no run is known of a chain
that was not accepted. -/
structure Sound (d : Diary β) (b : Bench β) : Prop where
  stopped_iff : .stopped ∈ d ↔ b.executor.running = false
  cancelled_iff : ∀ x, .cancelled x ∈ d ↔ b.executor.isCancelled x = true
  queued : ∀ t ∈ b.executor.queue, ∀ x, t.work.chain? = some x → x < b.executor.nextChain
  taken : ∀ x, b.stance.chain? = some x → x < b.executor.nextChain
  written : ∀ m ∈ d, ∀ x, m.chain? = some x → x < b.executor.nextChain

/-- An empty diary is sound for a bench that was just opened. -/
theorem sound_opened (now : Int) : @Sound β [] (opened now) where
  stopped_iff := iff_of_false List.not_mem_nil Bool.noConfusion
  cancelled_iff _ := iff_of_false List.not_mem_nil Bool.noConfusion
  queued _ h := absurd h List.not_mem_nil
  taken _ h := by cases h
  written _ h := absurd h List.not_mem_nil

/-- What is sound stays so while nothing is stopped or cancelled, if the queue, the worker and the
marks tell only of chains that were accepted. -/
theorem Sound.congr (h : Sound d b) (hrunning : c.executor.running = b.executor.running)
    (hcancelled : c.executor.cancelled = b.executor.cancelled)
    (hnext : b.executor.nextChain ≤ c.executor.nextChain)
    (hqueued : ∀ t ∈ c.executor.queue, t ∈ b.executor.queue ∨
      ∀ x, t.work.chain? = some x → x < c.executor.nextChain)
    (htaken : ∀ x, c.stance.chain? = some x → x < c.executor.nextChain)
    (hmarks : ∀ m ∈ since, ∃ x < c.executor.nextChain, m.chain? = some x) :
    Sound (since ++ d) c where
  stopped_iff := by
    -- marks that name a chain are neither a stop nor a cancellation
    have hnot : .stopped ∉ since := fun hm => by obtain ⟨x, -, hx⟩ := hmarks _ hm; cases hx
    rw [hrunning, List.mem_append, or_iff_right hnot]
    exact h.stopped_iff
  cancelled_iff x := by
    have hnot : .cancelled x ∉ since := fun hm => by obtain ⟨y, -, hy⟩ := hmarks _ hm; cases hy
    rw [Executor.isCancelled, hcancelled, List.mem_append, or_iff_right hnot]
    exact h.cancelled_iff x
  queued t ht := (hqueued t ht).elim
    (fun ht x hx => Nat.lt_of_lt_of_le (h.queued t ht x hx) hnext) id
  taken := htaken
  written m hm x hx := by
    rcases List.mem_append.mp hm with hm | hm
    · obtain ⟨y, hy, hmy⟩ := hmarks m hm
      exact Option.some.inj (hx.symm.trans hmy) ▸ hy
    · exact Nat.lt_of_lt_of_le (h.written m hm x hx) hnext

/-- The worker goes on with tasks of chains that were accepted, and the executor stays as it is. -/
theorem Sound.move (h : Sound d b) (hexec : c.executor = b.executor)
    (htaken : ∀ x, c.stance.chain? = some x → x < b.executor.nextChain)
    (hmarks : ∀ m ∈ since, ∃ x < b.executor.nextChain, m.chain? = some x) :
    Sound (since ++ d) c := by
  rw [← hexec] at htaken hmarks
  exact h.congr (by rw [hexec]) (by rw [hexec]) (Nat.le_of_eq (by rw [hexec]))
    (fun t ht => .inl (hexec ▸ ht)) htaken hmarks

/-- The chain whose run has started was accepted. -/
theorem Sound.accepted (h : Sound d b) {t : Task β} {time : Int} {x : ChainId} {interval : Nat}
    {body : β} (hstance : b.stance = .starting t time)
    (hwork : t.work = .periodic x interval body) : x < b.executor.nextChain :=
  h.taken x (by rw [hstance, Stance.chain?, hwork]; rfl)

/-- Every step keeps the diary sound. -/
theorem Step.sound (hstep : Step b since c) (h : Sound d b) : Sound (since ++ d) c := by
  cases hstep with
  | pass ms => exact h.move rfl h.taken (by simp)
  | @add _ _ _ _ accepted htime hadd =>
    cases accepted with
    -- a single task belongs to no chain
    | true =>
      obtain rfl := Executor.add_eq_true hadd
      refine h.congr rfl rfl (Nat.le_refl _) (fun t ht => ?_) h.taken (by simp)
      rcases Executor.mem_push.mp ht with rfl | ht
      · exact .inr fun x hx => by cases hx
      · exact .inl ht
    | false =>
      obtain rfl := Executor.add_eq_false hadd
      exact h
  | @register time interval body e chain htime hadd =>
    obtain ⟨rfl, rfl⟩ := Executor.addPeriodic_eq_ok hadd
    -- the new chain has the number that was free
    refine h.congr rfl rfl (Nat.le_succ _) (fun t ht => ?_)
      (fun x hx => Nat.lt_succ_of_lt (h.taken x hx)) fun m hm => ?_
    · rcases Executor.mem_push.mp ht with rfl | ht
      · exact .inr fun x hx => Option.some.inj hx ▸ Nat.lt_succ_self _
      · exact .inl ht
    · obtain rfl := List.mem_singleton.mp hm
      exact ⟨_, Nat.lt_succ_self _, rfl⟩
  | cancel chain =>
    refine ⟨?_, fun x => ?_, h.queued, h.taken, fun m hm x hx => ?_⟩
    · exact (List.mem_cons.trans (or_iff_right fun hm => by cases hm)).trans h.stopped_iff
    · rw [Executor.isCancelled_cancel, ← h.cancelled_iff]
      simp
    · rcases List.mem_cons.mp hm with rfl | hm
      · cases hx
      · exact h.written m hm x hx
  | halt =>
    refine ⟨iff_of_true (List.mem_cons_self ..) rfl, fun x => ?_, h.queued, h.taken,
      fun m hm x hx => ?_⟩
    · exact (List.mem_cons.trans (or_iff_right fun hm => by cases hm)).trans (h.cancelled_iff x)
    · rcases List.mem_cons.mp hm with rfl | hm
      · cases hx
      · exact h.written m hm x hx
  | drain hstopped =>
    exact h.congr rfl rfl (Nat.le_refl _) (fun t ht => absurd ht List.not_mem_nil) h.taken (by simp)
  | @take t e hstance hnext =>
    -- the queue loses its head, which the worker now holds
    obtain ⟨-, -, hqueue, -, hchain, hcancelled, hrunning⟩ :=
      (Executor.next?_eq_some_iff ..).mp hnext
    refine h.congr hrunning hcancelled (Nat.le_of_eq hchain.symm)
      (fun u hu => .inl (hqueue ▸ List.mem_cons_of_mem _ hu)) (fun x hx => ?_) (by simp)
    exact hchain ▸ h.queued t (hqueue ▸ List.mem_cons_self ..) x hx
  | drop hstance hover => exact h.move rfl (fun x hx => by cases hx) (by simp)
  | @start t hstance hover =>
    have htaken : ∀ x, t.work.chain? = some x → x < b.executor.nextChain := fun x hx =>
      h.taken x (by rw [hstance]; exact hx)
    refine h.move rfl htaken fun m hm => ?_
    obtain ⟨x, hx, rfl⟩ := List.mem_map.mp hm
    exact ⟨x, htaken x (Option.mem_toList.mp hx), rfl⟩
  | once hstance hwork => exact h.move rfl (fun x hx => by cases hx) (by simp)
  | @arm t time chain interval body hstance hwork hrunning =>
    have hlt := h.accepted hstance hwork
    -- the chain that is put back was accepted long ago
    rw [hwork, Executor.rearm_of_running hrunning]
    refine h.congr rfl rfl (Nat.le_refl _) (fun u hu => ?_) (fun x hx => by cases hx) ?_
    · rcases Executor.mem_push.mp hu with rfl | hu
      · exact .inr fun x hx => Option.some.inj hx ▸ hlt
      · exact .inl hu
    · simpa [Mark.chain?, Executor.push] using hlt
  | last hstance hwork hrunning =>
    have hlt := h.accepted hstance hwork
    exact h.move rfl (fun x hx => by cases hx) (by simpa [Mark.chain?] using hlt)
  | finish hstance => exact h.move rfl (fun x hx => by cases hx) (by simp)

/-- Every run keeps the diary sound. -/
theorem Run.sound {now : Int} (h : Run (opened now) d b) : Sound d b := by
  induction h with
  | refl => exact sound_opened now
  | step _ hstep ih => exact hstep.sound ih

/-! ## Where a chain is -/

section Chain

variable {r : Registration β} {starts : List Int}

/-- **Where the chain is** whose runs have started at `starts`, the latest first. -/
inductive Whereabouts (r : Registration β) (starts : List Int) (b : Bench β) : Prop
  /-- The next run waits in the queue. -/
  | waiting (seq : Nat)
      (hentries : b.executor.entries r.chain = [⟨.timed (r.next starts), seq, r.work⟩])
      (hstance : b.stance.chain? ≠ some r.chain)
  /-- The worker has taken the next run, which is due. -/
  | held (seq : Nat) (hentries : b.executor.entries r.chain = [])
      (hstance : b.stance = .holding ⟨.timed (r.next starts), seq, r.work⟩)
      (hdue : r.next starts ≤ b.now)
  /-- The run has started, and the next one is not armed yet. -/
  | starting (due : Due) (seq : Nat) (time : Int) (earlier : List Int)
      (hentries : b.executor.entries r.chain = [])
      (hstance : b.stance = .starting ⟨due, seq, r.work⟩ time) (hstarts : starts = time :: earlier)
  /-- The chain has come to its end. -/
  | ended (hentries : b.executor.entries r.chain = []) (hstance : b.stance.chain? ≠ some r.chain)
      (hover : b.executor.isCancelled r.chain = true ∨ b.executor.running = false)

/-- A chain stays where it is while others are busy. -/
theorem Whereabouts.congr (h : Whereabouts r starts b)
    (hentries : c.executor.entries r.chain = b.executor.entries r.chain)
    (hstance : c.stance = b.stance ∨
      b.stance.chain? ≠ some r.chain ∧ c.stance.chain? ≠ some r.chain)
    (hnow : b.now ≤ c.now)
    (hover : b.executor.isCancelled r.chain = true ∨ b.executor.running = false →
      c.executor.isCancelled r.chain = true ∨ c.executor.running = false) :
    Whereabouts r starts c := by
  have hne : b.stance.chain? ≠ some r.chain → c.stance.chain? ≠ some r.chain := fun hb =>
    hstance.elim (fun heq => heq ▸ hb) And.right
  cases h with
  | waiting seq hseq hb => exact .waiting seq (hentries.trans hseq) (hne hb)
  | held seq hnone hb hdue =>
    have heq : c.stance = b.stance := hstance.resolve_right fun hn => hn.1 (by rw [hb]; rfl)
    exact .held seq (hentries.trans hnone) (heq.trans hb) (Int.le_trans hdue hnow)
  | starting due seq time earlier hnone hb hstarts =>
    have heq : c.stance = b.stance := hstance.resolve_right fun hn => hn.1 (by rw [hb]; rfl)
    exact .starting due seq time earlier (hentries.trans hnone) (heq.trans hb) hstarts
  | ended hnone hb hend => exact .ended (hentries.trans hnone) (hne hb) (hover hend)

/-- A chain stays where it is while the worker goes on with something else. -/
theorem Whereabouts.aside (h : Whereabouts r starts b) (hexec : c.executor = b.executor)
    (hnow : c.now = b.now) (hbefore : b.stance.chain? ≠ some r.chain)
    (hafter : c.stance.chain? ≠ some r.chain) : Whereabouts r starts c :=
  h.congr (by rw [hexec]) (.inr ⟨hbefore, hafter⟩) (Int.le_of_eq hnow.symm)
    (by rw [hexec]; exact id)

/-- A run of the chain in the worker's hands is the next one; it is due, and no other one waits. -/
theorem Whereabouts.of_holding (h : Whereabouts r starts b) {t : Task β}
    (hstance : b.stance = .holding t) (ht : t.work.chain? = some r.chain) :
    b.executor.entries r.chain = [] ∧ t.work = r.work ∧ r.next starts ≤ b.now := by
  cases h with
  | waiting seq hseq hb => exact absurd (by rw [hstance]; exact ht) hb
  | held seq hnone hb hdue =>
    obtain rfl := Stance.holding.inj (hstance.symm.trans hb)
    exact ⟨hnone, rfl, hdue⟩
  | starting due seq time earlier hnone hb hstarts => cases hstance.symm.trans hb
  | ended hnone hb hend => exact absurd (by rw [hstance]; exact ht) hb

/-- A run of the chain that has started is the latest one, and no other one waits. -/
theorem Whereabouts.of_starting (h : Whereabouts r starts b) {t : Task β} {time : Int}
    (hstance : b.stance = .starting t time) (ht : t.work.chain? = some r.chain) :
    b.executor.entries r.chain = [] ∧ t.work = r.work ∧ starts.head? = some time := by
  cases h with
  | waiting seq hseq hb => exact absurd (by rw [hstance]; exact ht) hb
  | held seq hnone hb hdue => cases hstance.symm.trans hb
  | starting due seq time earlier hnone hb hstarts =>
    obtain ⟨rfl, rfl⟩ := Stance.starting.inj (hstance.symm.trans hb)
    exact ⟨hnone, rfl, hstarts ▸ rfl⟩
  | ended hnone hb hend => exact absurd (by rw [hstance]; exact ht) hb

/-- Either the run that has started is the latest one of the chain, or it is none of its runs. -/
theorem Whereabouts.of_starting_periodic (h : Whereabouts r starts b) {t : Task β} {time : Int}
    {chain : ChainId} {interval : Nat} {body : β} (hstance : b.stance = .starting t time)
    (hwork : t.work = .periodic chain interval body) :
    chain = r.chain ∧ interval = r.interval ∧ body = r.body ∧
        b.executor.entries r.chain = [] ∧ starts.head? = some time ∧
        b.stance.isStarting r.chain = true ∨
      chain ≠ r.chain ∧ b.stance.chain? ≠ some r.chain ∧ b.stance.isStarting r.chain = false := by
  have hchain : b.stance.chain? = some chain := by rw [hstance, Stance.chain?, hwork]; rfl
  have hstarting : b.stance.isStarting r.chain = (some chain == some r.chain) := by
    rw [hstance, Stance.isStarting, hwork]; rfl
  by_cases heq : chain = r.chain
  · obtain ⟨hnone, hrun, hhead⟩ := h.of_starting hstance (by rw [hwork, ← heq]; rfl)
    obtain ⟨-, hinterval, hbody⟩ := Work.periodic.inj (hwork.symm.trans hrun)
    exact .inl ⟨heq, hinterval, hbody, hnone, hhead, by rw [hstarting, heq, beq_self_eq_true]⟩
  · have hne : some chain ≠ some r.chain := fun hc => heq (Option.some.inj hc)
    exact .inr ⟨heq, hchain ▸ hne, by rw [hstarting, beq_eq_false_iff_ne.mpr hne]⟩

/-- What a step tells of a chain: nothing, that a run of it starts, or that its body begins. -/
inductive Tells (r : Registration β) (starts : List Int) (b : Bench β) (since : Diary β)
    (c : Bench β) : Prop
  | nothing (hstarts : since.starts r.chain = []) (hbegins : since.begins r.chain = 0)
      (hstance : c.stance.isStarting r.chain = b.stance.isStarting r.chain)
  | starts (hsince : since = [.started r.chain b.now]) (hdue : r.next starts ≤ b.now)
      (hcancel : b.executor.isCancelled r.chain = false)
      (hbefore : b.stance.isStarting r.chain = false) (hafter : c.stance.isStarting r.chain = true)
  | begins (time : Int) (htime : starts.head? = some time)
      (hsince : since = [.began r.chain r.body, .armed r.chain (time + r.interval)] ∨
        since = [.began r.chain r.body] ∧ b.executor.running = false)
      (hbefore : b.stance.isStarting r.chain = true) (hafter : c.stance.isStarting r.chain = false)

/-- What each step tells of a chain. -/
theorem Step.tells (hstep : Step b since c) (h : Whereabouts r starts b) :
    Tells r starts b since c := by
  cases hstep with
  | pass | add | register | cancel | halt | drain => exact .nothing rfl rfl rfl
  | take hstance | drop hstance | finish hstance => exact .nothing rfl rfl (by rw [hstance]; rfl)
  | @start t hstance hover =>
    have hbefore : b.stance.isStarting r.chain = false := by rw [hstance]; rfl
    by_cases ht : t.work.chain? = some r.chain
    · -- the start of the chain itself, so the worker has taken its task
      obtain ⟨-, -, hdue⟩ := h.of_holding hstance ht
      refine .starts (by rw [ht]; rfl) hdue ?_ hbefore (beq_iff_eq.mpr ht)
      rwa [Executor.isOver, ht] at hover
    · refine .nothing ?_ ?_ (hbefore ▸ beq_eq_false_iff_ne.mpr ht)
      all_goals cases hchain : t.work.chain? with
        | none => rfl
        | some y => simp_all [Diary.starts, Diary.begins, Mark.start?, Mark.isBegin]
  | once hstance hwork =>
    exact .nothing rfl rfl (by rw [hstance, Stance.isStarting, hwork]; rfl)
  | @arm _ time chain _ _ hstance hwork hrunning =>
    rcases h.of_starting_periodic hstance hwork with
      ⟨rfl, rfl, rfl, -, hhead, hbefore⟩ | ⟨hne, -, hbefore⟩
    · exact .begins time hhead (.inl rfl) hbefore rfl
    · exact .nothing rfl (by simp [Diary.begins, Mark.isBegin, hne]) hbefore.symm
  | @last _ time chain _ _ hstance hwork hrunning =>
    rcases h.of_starting_periodic hstance hwork with
      ⟨rfl, rfl, rfl, -, hhead, hbefore⟩ | ⟨hne, -, hbefore⟩
    · exact .begins time hhead (.inr ⟨rfl, hrunning⟩) hbefore rfl
    · exact .nothing rfl (by simp [Diary.begins, Mark.isBegin, hne]) hbefore.symm

/-- Every step leaves a chain that was accepted in one of its places. -/
theorem Step.whereabouts (hstep : Step b since c) (hknown : r.chain < b.executor.nextChain)
    (h : Whereabouts r (d.starts r.chain) b) :
    Whereabouts r (Diary.starts r.chain (since ++ d)) c := by
  -- where the step tells of no start, the chain has started as often as before
  have hsame : since.starts r.chain = [] →
      Diary.starts r.chain (since ++ d) = d.starts r.chain := Diary.starts_append_of_nil
  cases hstep with
  | pass ms => exact h.congr rfl (.inl rfl) (Int.le_add_of_nonneg_right (Int.natCast_nonneg _)) id
  | add htime hadd =>
    obtain ⟨hentries, -, hcancelled, hrunning⟩ := Executor.add_keeps hadd
    refine h.congr hentries (.inl rfl) (Int.le_refl _) (Or.imp (fun hc => ?_) hrunning.trans)
    rwa [Executor.isCancelled, hcancelled]
  | register htime hadd =>
    obtain ⟨rfl, rfl⟩ := Executor.addPeriodic_eq_ok hadd
    refine h.congr (Executor.entries_push_of_ne (fun hc => ?_) _) (.inl rfl) (Int.le_refl _) id
    exact Nat.lt_irrefl _ (Option.some.inj hc ▸ hknown)
  | cancel chain =>
    exact h.congr rfl (.inl rfl) (Int.le_refl _)
      (Or.imp_left fun hc => Executor.isCancelled_cancel.mpr (.inr hc))
  | halt => exact h.congr rfl (.inl rfl) (Int.le_refl _) (fun _ => .inr rfl)
  | drain hstopped =>
    -- the executor drops what waits; a run in the worker's hands goes on
    cases h with
    | waiting seq hseq hb => exact .ended rfl hb (.inr hstopped)
    | held seq hnone hb hdue => exact .held seq rfl hb hdue
    | starting due seq time earlier hnone hb hstarts =>
      exact .starting due seq time earlier rfl hb hstarts
    | ended hnone hb hend => exact .ended rfl hb (.inr hstopped)
  | @take t e hstance hnext =>
    obtain ⟨-, hready, hqueue, -, -, hcancelled, hrunning⟩ :=
      (Executor.next?_eq_some_iff ..).mp hnext
    have hentries : b.executor.entries r.chain =
        if t.work.chain? = some r.chain then t :: e.entries r.chain else e.entries r.chain :=
      Executor.entries_next? hnext
    have hidle : b.stance.chain? ≠ some r.chain := by simp [hstance, Stance.chain?]
    by_cases ht : t.work.chain? = some r.chain
    · rw [if_pos ht] at hentries
      cases h with
      | waiting seq hseq hb =>
        obtain ⟨rfl, hnone⟩ := List.cons.inj (hentries.symm.trans hseq)
        exact .held seq hnone rfl (of_decide_eq_true hready)
      | held seq hnone | starting due seq time earlier hnone | ended hnone =>
        cases hentries.symm.trans hnone
    · rw [if_neg ht] at hentries
      refine h.congr hentries.symm (.inr ⟨hidle, ht⟩) (Int.le_refl _)
        (Or.imp (fun hc => ?_) hrunning.trans)
      rwa [Executor.isCancelled, hcancelled]
  | @drop t hstance hover =>
    by_cases ht : t.work.chain? = some r.chain
    · obtain ⟨hnone, -⟩ := h.of_holding hstance ht
      refine .ended hnone (by simp [Stance.chain?]) (.inl ?_)
      rwa [Executor.isOver, ht] at hover
    · exact h.aside rfl rfl (by rw [hstance]; exact ht) (by simp [Stance.chain?])
  | @start t hstance hover =>
    by_cases ht : t.work.chain? = some r.chain
    · obtain ⟨hnone, hrun, -⟩ := h.of_holding hstance ht
      obtain ⟨due, seq, work⟩ := t
      obtain rfl : work = r.work := hrun
      refine .starting due seq b.now (d.starts r.chain) hnone rfl ?_
      simp [Diary.starts, Mark.start?]
    · rw [hsame]
      · exact h.aside rfl rfl (by rw [hstance]; exact ht) ht
      · cases hchain : t.work.chain? with
        | none => rfl
        | some y => simp_all [Diary.starts, Mark.start?]
  | @once t _ _ hstance hwork =>
    exact h.aside rfl rfl (by simp [hstance, Stance.chain?, hwork, Work.chain?])
      (by simp [Stance.chain?])
  | @arm t time _ _ _ hstance hwork hrunning =>
    rw [hsame rfl, hwork, Executor.rearm_of_running hrunning]
    rcases h.of_starting_periodic hstance hwork with
      ⟨rfl, rfl, rfl, hnone, hhead, -⟩ | ⟨hne, hother, -⟩
    · refine .waiting b.executor.nextSeq ?_ (by simp [Stance.chain?])
      rw [Registration.next, List.headD_eq_head?_getD, hhead]
      exact Executor.entries_push_of_eq rfl hnone _
    · refine h.congr (Executor.entries_push_of_ne (fun hc => ?_) _)
        (.inr ⟨hother, by simp [Stance.chain?]⟩) (Int.le_refl _) id
      exact hne (Option.some.inj hc)
  | last hstance hwork hrunning =>
    rw [hsame rfl]
    rcases h.of_starting_periodic hstance hwork with ⟨rfl, -, -, hnone, -⟩ | ⟨-, hother, -⟩
    · exact .ended hnone (by simp [Stance.chain?]) (.inr hrunning)
    · exact h.aside rfl rfl hother (by simp [Stance.chain?])
  | finish hstance =>
    exact h.aside rfl rfl (by simp [hstance, Stance.chain?]) (by simp [Stance.chain?])

/-! ## The rhythm -/

/-- What holds of a chain that was accepted, after every run with the diary `d`. -/
structure Paced (r : Registration β) (d : Diary β) (b : Bench β) : Prop where
  /-- The chain is in one of its places. -/
  whereabouts : Whereabouts r (d.starts r.chain) b
  /-- Its runs start one interval apart at least, the first one an interval after registration. -/
  spaced : (d.starts r.chain ++ [r.time]).Pairwise fun later earlier : Int =>
    earlier + r.interval ≤ later
  /-- Its body has begun once for each start, but for a run that the worker is still starting. -/
  settled : (d.starts r.chain).length =
    d.begins r.chain + if b.stance.isStarting r.chain then 1 else 0
  /-- Just before its body began, the next run was armed for one interval after the latest start,
  unless the executor had stopped. -/
  rearmed : ∀ older body, .began r.chain body :: older <:+ d → body = r.body ∧
    ∃ time, (Diary.starts r.chain older).head? = some time ∧
      (.stopped ∈ older ∨ ∃ rest, older = .armed r.chain (time + r.interval) :: rest)
  /-- It has not started since it was cancelled. -/
  silent : ∀ older, .cancelled r.chain :: older <:+ d →
    d.starts r.chain = Diary.starts r.chain older

/-- A step that tells of no start keeps a cancelled chain silent. -/
theorem Paced.silent_of_quiet (h : Paced r d b) (hnone : since.starts r.chain = [])
    {older : Diary β} (hsuf : .cancelled r.chain :: older <:+ since ++ d) :
    Diary.starts r.chain (since ++ d) = Diary.starts r.chain older := by
  rw [Diary.starts_append_of_nil hnone]
  rcases Diary.suffix_append_cases hsuf with ⟨rest, ⟨later, rfl⟩, rfl⟩ | hsuf
  · rw [Diary.starts_append, List.append_eq_nil_iff] at hnone
    exact (Diary.starts_append_of_nil hnone.2).symm
  · exact h.silent older hsuf

/-- One interval from the latest start is one interval from all of them. -/
theorem Paced.next_le (h : Paced r d b) :
    ∀ earlier ∈ d.starts r.chain ++ [r.time], earlier + r.interval ≤ r.next (d.starts r.chain) := by
  have hspaced := h.spaced
  rw [Registration.next]
  cases hstarts : d.starts r.chain with
  | nil => simp
  | cons latest rest =>
    rw [hstarts, List.cons_append, List.pairwise_cons] at hspaced
    intro earlier hmem
    rw [List.cons_append, List.mem_cons] at hmem
    rcases hmem with rfl | hmem
    · exact Int.le_refl _
    · have hle := hspaced.1 earlier hmem
      exact Int.le_trans hle (Int.le_add_of_nonneg_right (Int.natCast_nonneg _))

/-- Every step keeps the rhythm of a chain that was accepted. -/
theorem Step.paced (hstep : Step b since c) (hsound : Sound d b)
    (hknown : r.chain < b.executor.nextChain) (h : Paced r d b) : Paced r (since ++ d) c := by
  have hwhere := hstep.whereabouts hknown h.whereabouts
  cases hstep.tells h.whereabouts with
  | nothing hstarts hbegins hstance =>
    have hsame : Diary.starts r.chain (since ++ d) = d.starts r.chain :=
      Diary.starts_append_of_nil hstarts
    refine ⟨hwhere, hsame ▸ h.spaced, ?_, fun older body hsuf => ?_,
      fun older hsuf => h.silent_of_quiet hstarts hsuf⟩
    · rw [hsame, h.settled, Diary.begins_append, hbegins, hstance, Nat.zero_add]
    · refine h.rearmed older body ((Diary.suffix_append_cases hsuf).resolve_left ?_)
      rintro ⟨rest, hrest, -⟩
      have hnone := List.countP_eq_zero.mp hbegins _ (hrest.subset (List.mem_cons_self ..))
      exact hnone (beq_self_eq_true _)
  | starts hsince hdue hcancel hbefore hafter =>
    subst hsince
    have hmore : Diary.starts r.chain ([.started r.chain b.now] ++ d) =
        b.now :: d.starts r.chain := by simp [Diary.starts, Mark.start?]
    refine ⟨hwhere, ?_, ?_, fun older body hsuf => ?_, fun older hsuf => ?_⟩
    · rw [hmore, List.cons_append, List.pairwise_cons]
      exact ⟨fun earlier hmem => Int.le_trans (h.next_le earlier hmem) hdue, h.spaced⟩
    · rw [hmore, List.length_cons, h.settled, hbefore, hafter]
      rfl
    · exact h.rearmed older body (Diary.suffix_of_ne hsuf (by simp))
    -- a cancelled chain starts no run
    · have hmem := (Diary.suffix_of_ne hsuf (by simp)).subset (List.mem_cons_self ..)
      rw [(hsound.cancelled_iff _).mp hmem] at hcancel
      cases hcancel
  | begins time htime hsince hbefore hafter =>
    have hstarts : since.starts r.chain = [] := by rcases hsince with rfl | ⟨rfl, -⟩ <;> rfl
    have hbegins : since.begins r.chain = 1 := by
      rcases hsince with rfl | ⟨rfl, -⟩ <;> simp [Diary.begins, Mark.isBegin]
    have hsame : Diary.starts r.chain (since ++ d) = d.starts r.chain :=
      Diary.starts_append_of_nil hstarts
    refine ⟨hwhere, hsame ▸ h.spaced, ?_, fun older body hsuf => ?_,
      fun older hsuf => h.silent_of_quiet hstarts hsuf⟩
    · rw [hsame, h.settled, Diary.begins_append, hbegins, hbefore, hafter]
      simp [Nat.add_comm]
    · rcases hsince with rfl | ⟨rfl, hstopped⟩
      · rcases List.suffix_cons_iff.mp hsuf with heq | hsuf
        · obtain ⟨hmark, rfl⟩ := List.cons.inj heq
          obtain ⟨-, rfl⟩ := Mark.began.inj hmark
          exact ⟨rfl, time, htime, .inr ⟨d, rfl⟩⟩
        · exact h.rearmed older body (Diary.suffix_of_ne hsuf (by simp))
      · rcases List.suffix_cons_iff.mp hsuf with heq | hsuf
        · obtain ⟨hmark, rfl⟩ := List.cons.inj heq
          obtain ⟨-, rfl⟩ := Mark.began.inj hmark
          exact ⟨rfl, time, htime, .inl (hsound.stopped_iff.mpr hstopped)⟩
        · exact h.rearmed older body hsuf

/-- A chain that is accepted begins its rhythm: its first run waits. -/
theorem Sound.paced_register (h : Sound d b) {e : Executor β}
    (hadd : b.executor.addPeriodic r.time r.interval r.body = .ok (e, r.chain)) :
    Paced r (.registered r :: d) { b with executor := e } := by
  obtain ⟨hchain, rfl⟩ := Executor.addPeriodic_eq_ok hadd
  have hunknown : ∀ {x}, x < b.executor.nextChain → x ≠ r.chain := fun hx heq =>
    Nat.lt_irrefl _ (hchain ▸ heq ▸ hx)
  -- the number is free, so the diary knows nothing of the chain
  have hmarks : ∀ m ∈ d, m.chain? ≠ some r.chain := fun m hm hx =>
    hunknown (h.written m hm _ hx) rfl
  have hnone : d.starts r.chain = [] := Diary.starts_eq_nil_of_unknown hmarks
  have hstarts : Diary.starts r.chain (.registered r :: d) = [] := hnone
  have hbegins : Diary.begins r.chain (.registered r :: d) = 0 :=
    (List.countP_cons_of_neg Bool.false_ne_true).trans (Diary.begins_eq_zero_of_unknown hmarks)
  have hstance : b.stance.chain? ≠ some r.chain := fun hx => hunknown (h.taken _ hx) rfl
  have hentries : b.executor.entries r.chain = [] :=
    Executor.entries_eq_nil_of_unknown fun t ht hx => hunknown (h.queued t ht _ hx) rfl
  -- no run has started or begun, and one task of the chain waits
  refine ⟨?_, ?_, ?_, fun older body hsuf => ?_, fun older hsuf => ?_⟩
  · rw [hstarts]
    exact .waiting b.executor.nextSeq (Executor.entries_push_of_eq rfl hentries _) hstance
  · rw [hstarts]
    simp
  · rw [hstarts, hbegins, Stance.isStarting_eq_false hstance]
    rfl
  · have hold : .began r.chain body :: older <:+ d := Diary.suffix_of_ne hsuf (by simp)
    exact absurd rfl (hmarks _ (hold.subset (List.mem_cons_self ..)))
  · obtain ⟨newer, rfl⟩ : .cancelled r.chain :: older <:+ d := Diary.suffix_of_ne hsuf (by simp)
    rw [Diary.starts_append, List.append_eq_nil_iff] at hnone
    rw [hstarts]
    exact hnone.2.symm

/-- Every run keeps the rhythm of every chain that was accepted in it. -/
theorem Run.paced {now : Int} (h : Run (opened now) d b) (hr : .registered r ∈ d) :
    Paced r d b := by
  induction h with
  | refl => cases hr
  | @step d since c c' hrun hstep ih =>
    rcases List.mem_append.mp hr with hnew | hold
    · cases hstep with
      | register htime hadd =>
        obtain rfl := Mark.registered.inj (List.mem_singleton.mp hnew)
        exact hrun.sound.paced_register hadd
      | pass | add | drain | take | drop | once | finish => cases hnew
      | cancel | halt | arm | last => simp at hnew
      | start hstance hover => simp at hnew
    · exact hstep.paced hrun.sound (hrun.sound.written _ hold _ rfl) (ih hold)

/-- A chain that neither waits nor is in the worker's hands does not return in a step. -/
theorem Step.gone (hstep : Step b since c) {x : ChainId} (hknown : x < b.executor.nextChain)
    (hentries : b.executor.entries x = []) (hstance : b.stance.chain? ≠ some x) :
    x < c.executor.nextChain ∧ c.executor.entries x = [] ∧ c.stance.chain? ≠ some x := by
  cases hstep with
  | pass | cancel | halt => exact ⟨hknown, hentries, hstance⟩
  | add htime hadd =>
    obtain ⟨hsame, hchain, -⟩ := Executor.add_keeps hadd
    exact ⟨hchain ▸ hknown, hsame.trans hentries, hstance⟩
  | register htime hadd =>
    obtain ⟨rfl, rfl⟩ := Executor.addPeriodic_eq_ok hadd
    refine ⟨Nat.lt_succ_of_lt hknown, ?_, hstance⟩
    refine (Executor.entries_push_of_ne (fun hc => ?_) _).trans hentries
    exact Nat.lt_irrefl _ (Option.some.inj hc ▸ hknown)
  | drain => exact ⟨hknown, rfl, hstance⟩
  | @take t e hidle hnext =>
    obtain ⟨-, -, -, -, hchain, -⟩ := (Executor.next?_eq_some_iff ..).mp hnext
    have htaken : b.executor.entries x =
        if t.work.chain? = some x then t :: e.entries x else e.entries x :=
      Executor.entries_next? hnext
    by_cases ht : t.work.chain? = some x
    · rw [if_pos ht, hentries] at htaken
      -- the task that is taken was in the queue, so it is of another chain
      cases htaken
    · rw [if_neg ht, hentries] at htaken
      exact ⟨hchain ▸ hknown, htaken.symm, ht⟩
  | drop | once | last | finish => exact ⟨hknown, hentries, by simp [Stance.chain?]⟩
  | start hholding hover => exact ⟨hknown, hentries, by rwa [hholding] at hstance⟩
  | arm hstarting hwork hrunning =>
    rw [hwork, Executor.rearm_of_running hrunning]
    refine ⟨hknown, (Executor.entries_push_of_ne (fun hc => ?_) _).trans hentries,
      by simp [Stance.chain?]⟩
    -- the chain that is put back is the one that the worker runs, so another one
    rw [hstarting, Stance.chain?, hwork] at hstance
    exact hstance hc

/-- A chain that neither waits nor is in the worker's hands does not return. -/
theorem Run.gone (h : Run b since c) {x : ChainId} (hknown : x < b.executor.nextChain)
    (hentries : b.executor.entries x = []) (hstance : b.stance.chain? ≠ some x) :
    x < c.executor.nextChain ∧ c.executor.entries x = [] ∧ c.stance.chain? ≠ some x := by
  induction h with
  | refl => exact ⟨hknown, hentries, hstance⟩
  | step _ hstep ih => exact hstep.gone ih.1 ih.2.1 ih.2.2

/-- A task that is over leaves the worker's hands without a trace. -/
theorem Step.of_isOver (hstep : Step b since c) {t : Task β} (hstance : b.stance = .holding t)
    (hover : b.executor.isOver t = true) (hmove : c.stance ≠ b.stance) :
    since = [] ∧ c = { b with stance := .idle } := by
  cases hstep with
  | pass | add | register | cancel | halt | drain => exact absurd rfl hmove
  | drop => exact ⟨rfl, rfl⟩
  | start hholding hrun =>
    obtain rfl := Stance.holding.inj (hholding.symm.trans hstance)
    cases hover.symm.trans hrun
  | take h | once h | arm h | last h | finish h => cases hstance.symm.trans h

/-- **A chain keeps time**: what a run with the diary `d` that ends at `b` shows of it. -/
structure KeepsTime (r : Registration β) (d : Diary β) (b : Bench β) : Prop where
  /-- Until it is cancelled or the executor stops, exactly one task of it is in the queue, due one
  interval after the latest start or the registration, unless the worker has just taken it. -/
  single : .stopped ∉ d → .cancelled r.chain ∉ d → b.stance.chain? ≠ some r.chain →
    ∃ seq, b.executor.entries r.chain = [⟨.timed (r.next (d.starts r.chain)), seq, r.work⟩]
  /-- Never is more than one task of it in the queue. -/
  atMostOne : (b.executor.entries r.chain).length ≤ 1
  /-- Its runs start one interval apart at least, the first one an interval after registration. -/
  spaced : (d.starts r.chain ++ [r.time]).Pairwise fun later earlier : Int =>
    earlier + r.interval ≤ later
  /-- Its body has begun once for each start, but for a run that the worker is still starting. -/
  settled : (d.starts r.chain).length =
    d.begins r.chain + if b.stance.isStarting r.chain then 1 else 0
  /-- Just before its body began, the next run was armed for one interval after the latest start,
  unless the executor had stopped. -/
  rearmed : ∀ older body, .began r.chain body :: older <:+ d → body = r.body ∧
    ∃ time, (Diary.starts r.chain older).head? = some time ∧
      (.stopped ∈ older ∨ ∃ rest, older = .armed r.chain (time + r.interval) :: rest)
  /-- Since it was cancelled no run of it has started, and its body has begun for no other run than
  those that had started before. -/
  silent : ∀ older, .cancelled r.chain :: older <:+ d →
    d.starts r.chain = Diary.starts r.chain older ∧
      d.begins r.chain ≤ (Diary.starts r.chain older).length
  /-- Once it is cancelled, a task of it that the worker has taken was the last one, and the worker
  can only let go of it. -/
  disappears : .cancelled r.chain ∈ d → ∀ t, b.stance = .holding t →
    t.work.chain? = some r.chain → b.executor.entries r.chain = [] ∧
      ∀ since c, Step b since c → c.stance ≠ b.stance →
        since = [] ∧ c = { b with stance := .idle }
  /-- With no task in the queue or in the worker's hands it never returns. -/
  gone : b.executor.entries r.chain = [] → b.stance.chain? ≠ some r.chain →
    ∀ since c, Run b since c → c.executor.entries r.chain = [] ∧ c.stance.chain? ≠ some r.chain

/-- Every chain that was accepted keeps time. -/
theorem Run.inTime {now : Int} (h : Run (opened now) d b) (hr : .registered r ∈ d) :
    KeepsTime r d b := by
  have hsound := h.sound
  have hpaced := h.paced hr
  refine ⟨fun hstopped hcancelled hstance => ?_, ?_, hpaced.spaced, hpaced.settled, hpaced.rearmed,
    fun older hsuf => ?_, fun hcancelled t hstance ht => ?_,
    fun hentries hstance since c hrun => ?_⟩
  · -- wherever the chain is, it is not in the worker's hands
    cases hpaced.whereabouts with
    | waiting seq hseq => exact ⟨seq, hseq⟩
    | held seq hnone hb => exact absurd (by rw [hb]; rfl) hstance
    | starting due seq time earlier hnone hb => exact absurd (by rw [hb]; rfl) hstance
    | ended hnone hb hover =>
      rcases hover with hover | hover
      · exact absurd ((hsound.cancelled_iff _).mpr hover) hcancelled
      · exact absurd (hsound.stopped_iff.mpr hover) hstopped
  · -- at most one task of a chain waits
    cases hpaced.whereabouts with
    | waiting seq hseq => rw [hseq]; exact Nat.le_refl 1
    | held seq hnone | starting due seq time earlier hnone | ended hnone =>
      rw [hnone]; exact Nat.zero_le 1
  · have hsilent := hpaced.silent older hsuf
    refine ⟨hsilent, ?_⟩
    rw [← hsilent, hpaced.settled]
    exact Nat.le_add_right ..
  · -- a task that is held when its chain is cancelled is over, so it is dropped
    obtain ⟨hnone, -⟩ := hpaced.whereabouts.of_holding hstance ht
    have hover : b.executor.isOver t = true := by
      rw [Executor.isOver, ht]
      exact (hsound.cancelled_iff _).mp hcancelled
    exact ⟨hnone, fun since c hstep hmove => hstep.of_isOver hstance hover hmove⟩
  · exact (hrun.gone (hsound.written _ hr _ rfl) hentries hstance).2

/-- **Periodic chains.** Whatever bodies do, whoever cancels, adds and stops, and however late the
worker is, every chain that was accepted keeps time. A worker that holds a task can fire it without
a delay, which is what launching it does, and a session whose worker takes a task is such a run. -/
theorem Run.keepsTime {now : Int} (h : Run (opened now) d b) (hr : .registered r ∈ d) :
    KeepsTime r d b ∧
    (∀ t, b.stance = .holding t → b.Fires t ∧ b.executor.launch b.now t =
      if b.executor.isOver t then (b.executor, none)
      else (b.executor.rearm b.now t.work, some t.work.body)) ∧
    ∀ s s' : Session, s.step? = some s' → s.Fires s' :=
  ⟨h.inTime hr, fun t hstance => ⟨fires hstance, b.executor.launch_eq b.now t⟩,
    fun _ _ => Session.step?_fires⟩

end Chain

/-- A worker that is late by two intervals starts the chain once and arms it for one interval after
that start. The body cancels its own chain, and the worker lets go of the run that it takes next. -/
theorem late_run_keepsTime :
    ∃ (b : Bench Nat) (d : Diary Nat), Run (opened 0) d b ∧ .registered ⟨0, 0, 50, 7⟩ ∈ d ∧
      d.starts 0 = [170] ∧ b.stance = .holding ⟨.timed 220, 1, .periodic 0 50 7⟩ ∧
      KeepsTime ⟨0, 0, 50, 7⟩ d b ∧ b.Fires ⟨.timed 220, 1, .periodic 0 50 7⟩ := by
  have hsteps : Run (opened 0) _ _ := Run.refl
    |>.step (@Step.register _ _ 0 50 7 _ _ (by decide) rfl)
    |>.step (.pass _ 170)
    |>.step (.take rfl rfl)
    |>.step (.start rfl rfl)
    |>.step (.arm rfl rfl rfl)
    |>.step (.cancel _ 0)
    |>.step (.finish rfl)
    |>.step (.pass _ 60)
    |>.step (.take rfl rfl)
  obtain ⟨b, hrun, hstance⟩ : ∃ b : Bench Nat, Run (opened 0)
      [.cancelled 0, .began 0 7, .armed 0 220, .started 0 170, .registered ⟨0, 0, 50, 7⟩] b ∧
      b.stance = .holding ⟨.timed 220, 1, .periodic 0 50 7⟩ := ⟨_, hsteps, rfl⟩
  obtain ⟨hkeeps, hfires, -⟩ := hrun.keepsTime (r := ⟨0, 0, 50, 7⟩) (by simp)
  exact ⟨b, _, hrun, by simp, by decide, hstance, hkeeps, (hfires _ hstance).1⟩

end Bench

end Telecontrol
