import Keyforge.Proofs.Build.Handling
import Mathlib.Data.List.Perm.Basic

/-!
# Message streams

The messages of every attempt are a well-formed transcript. The invariant is that an attempt is in
the hands of one task at most and has told what that task says (`System.Coherent`). A step means one
of a few things to an attempt (`Concerns`, `act_concerns`), all of which keep this. Once an attempt is
cancelled, only a line that was read already is told (`Quiet`).
-/

namespace Keyforge.Build

open Keyforge.Build.Task

namespace System

/-! ### The invariant -/

/-- Every attempt is in the hands of one task at most and stands as that task says. -/
structure Coherent (starts : List (Nat × Execution)) (s : System) : Prop where
  orderly : s.workshop.Orderly
  held : ∀ id a, s.workshop.attempt? id = some a →
    a.Held (outputOf starts id) (Task.holders id s.tasks)
  unknown : ∀ id, s.workshop.attempt? id = none →
    Task.holders id s.tasks = [] ∧ starts.lookup id = none

/-- What a step of `t`, after which `next` are there in its place, means to one attempt. -/
inductive Concerns (starts starts' : List (Nat × Execution)) (w w' : Workshop) (t : Task)
    (rest next : List Task) (id : Nat) : Prop where
  /-- Nothing, but that it may be cancelled. -/
  | aside (f : Attempt → Attempt) (like : ∀ a : Attempt, a.Like (f a))
      (attempt : w'.attempt? id = (w.attempt? id).map f)
      (started : starts'.lookup id = starts.lookup id)
      (holders : Task.holders id next = Task.holders id [t])
  /-- It was in hand, or it is made by the step. -/
  | inHand (own : t.owner? = some id ∨ w.attempt? id = none)
      (others : Task.holders id rest = [])
      (held : ∃ a, w'.attempt? id = some a ∧
        a.Held (outputOf starts' id) (Task.holders id next))

section Invariant

variable {starts starts' : List (Nat × Execution)} {s s' : System} {t : Task}
  {rest next : List Task}

theorem Coherent.of_concerns (h : s.Coherent starts) (htasks : s.tasks.Perm (t :: rest))
    (htasks' : s'.tasks.Perm (next ++ rest)) (horderly : s'.workshop.Orderly)
    (hall : ∀ id, Concerns starts starts' s.workshop s'.workshop t rest next id) :
    s'.Coherent starts' where
  orderly := horderly
  held id b hb := by
    refine Attempt.Held.perm ?_ (holders_perm htasks' id).symm
    rw [holders_append]
    cases hall id with
    | aside f hlike hattempt hstarted hholders =>
      rw [hattempt] at hb
      obtain ⟨a, ha, rfl⟩ := Option.map_eq_some_iff.mp hb
      have houtput : outputOf starts' id = outputOf starts id := by
        unfold outputOf
        rw [hstarted]
      rw [houtput, hholders, ← holders_append]
      exact ((h.held id a ha).perm (holders_perm htasks id)).like (hlike a)
    | inHand _ hothers hheld =>
      obtain ⟨a, ha, hheld⟩ := hheld
      rw [ha] at hb
      cases hb
      rw [hothers, List.append_nil]
      exact hheld
  unknown id hid := by
    cases hall id with
    | aside f _ hattempt hstarted hholders =>
      rw [hattempt, Option.map_eq_none_iff] at hid
      obtain ⟨hnone, hunstarted⟩ := h.unknown id hid
      refine ⟨?_, hstarted.trans hunstarted⟩
      have hperm := holders_perm htasks' id
      rw [holders_append, hholders, ← holders_append] at hperm
      have hold : (holders id s.tasks).Perm (holders id ([t] ++ rest)) :=
        holders_perm htasks id
      rw [hnone] at hold
      rw [List.nil_perm.mp hold] at hperm
      exact List.perm_nil.mp hperm
    | inHand _ _ hheld =>
      obtain ⟨a, ha, -⟩ := hheld
      rw [ha] at hid
      cases hid

theorem lookup_begun {id : Nat} (toolchain : Toolchain) (ht : t.owner? ≠ some id) :
    (s.begun toolchain t).lookup id = none := by
  unfold begun
  split
  next i command =>
    have hne : i ≠ id := fun hi => ht (congrArg some hi)
    rw [List.lookup_eq_none_iff]
    intro p hp
    obtain ⟨e, -, rfl⟩ := List.mem_map.mp hp
    simpa using Ne.symm hne
  next => rfl

theorem holders_singleton_of_ne {id : Nat} (ht : t.owner? ≠ some id) : holders id [t] = [] :=
  holders_eq_nil fun u hu => by
    rw [List.mem_singleton.mp hu]
    exact ht

/-- What a step means to every attempt. -/
theorem act_concerns (h : s.Coherent starts) (htasks : s.tasks.Perm (t :: rest))
    (toolchain : Toolchain) (id : Nat) :
    Concerns starts (starts ++ s.begun toolchain t) s.workshop (s.act toolchain t).1.workshop t rest
      ((s.act toolchain t).2 :: t.sent) id := by
  have hperm := holders_perm htasks
  have hlookup : ∀ other, t.owner? ≠ some other →
      (starts ++ s.begun toolchain t).lookup other = starts.lookup other := by
    intro other hother
    rw [List.lookup_append, lookup_begun toolchain hother, Option.or_none]
  cases howner : t.owner? with
  | some own =>
    -- the attempt in hand is known, and no other task has it
    obtain ⟨a, ha⟩ : ∃ a, s.workshop.attempt? own = some a := by
      cases ha : s.workshop.attempt? own with
      | some a => exact ⟨a, rfl⟩
      | none =>
        have hnil := hperm own
        rw [(h.unknown own ha).1, holders_cons_of_owner howner] at hnil
        cases List.nil_perm.mp hnil
    have hheld := (h.held own a ha).perm (hperm own)
    rw [holders_cons_of_owner howner] at hheld
    obtain ⟨hothers, hfits⟩ := hheld.of_cons
    have hhands := act_handsOn_begun ha h.orderly howner hfits toolchain
    by_cases hid : id = own
    · subst hid
      exact .inHand (.inl howner) hothers hhands.held
    · have hne : t.owner? ≠ some id := by
        rw [howner]
        exact fun heq => hid (Option.some.inj heq).symm
      refine .aside (fun a => a) (fun a => ⟨rfl, rfl, rfl, fun h => h⟩) ?_ (hlookup id hne) ?_
      · rw [hhands.others id hid, Option.map_id']
      · rw [holders_singleton_of_ne hne]
        exact holders_eq_nil fun u hu hu' => hid (hhands.owners u hu id hu')
  | none =>
    have hne : ∀ other, t.owner? ≠ some other := by
      intro other
      rw [howner]
      nofun
    by_cases hfree : ∀ artifacts, t = .claim artifacts → s.workshop.active? ≠ none
    · obtain ⟨hnext, hsent, hattempts⟩ := act_of_unowned howner hfree toolchain
      obtain ⟨f, hlike, hattempt⟩ := hattempts id
      refine .aside f hlike hattempt (hlookup id (hne id)) ?_
      rw [hsent, holders_singleton_of_ne (hne id), holders_singleton_of_ne]
      rw [hnext]
      nofun
    · -- a new attempt, in the hands of the call that asked for it
      simp only [not_forall, not_not] at hfree
      obtain ⟨artifacts, rfl, hfree⟩ := hfree
      obtain ⟨w', hclaim, hact⟩ := exists_act_claim_of_free toolchain artifacts hfree
      rw [hact]
      have hnew := Workshop.attempt?_of_claim hclaim
      have hunknown := h.orderly.attempt?_nextId
      by_cases hid : id = s.workshop.nextId
      · subst hid
        obtain ⟨hnone, hunstarted⟩ := h.unknown _ hunknown
        have hrest := hperm s.workshop.nextId
        rw [hnone] at hrest
        have houtput : outputOf (starts ++ []) s.workshop.nextId = none := by
          unfold outputOf
          rw [List.append_nil, hunstarted, Option.map_none]
        have hself := hnew s.workshop.nextId
        rw [hunknown, if_pos rfl, Option.none_or] at hself
        refine .inHand (.inr hunknown) (List.nil_perm.mp hrest) ⟨_, hself, ?_⟩
        show Attempt.Held (outputOf (starts ++ []) _) _ (holders _ [.validate _ artifacts])
        rw [houtput, holders_cons_of_owner rfl]
        exact ⟨⟨{}, rfl, rfl, rfl, rfl⟩, rfl, rfl⟩
      · refine .aside (fun a => a) (fun a => ⟨rfl, rfl, rfl, fun h => h⟩) ?_ (hlookup id (hne id)) ?_
        · show w'.attempt? id = _
          rw [hnew, if_neg (Ne.symm hid), Option.or_none, Option.map_id']
        · rw [holders_singleton_of_ne (hne id)]
          exact holders_singleton_of_ne fun heq => hid (Option.some.inj heq).symm

theorem step_perm {n : Nat} (toolchain : Toolchain) (hn : s.tasks[n]? = some t) :
    ∃ rest, s.tasks.Perm (t :: rest) ∧
      (s.step toolchain n).tasks.Perm ((s.act toolchain t).2 :: t.sent ++ rest) := by
  obtain ⟨hlt, rfl⟩ := List.getElem?_eq_some_iff.mp hn
  refine ⟨s.tasks.eraseIdx n, (List.getElem_cons_eraseIdx_perm hlt).symm, ?_⟩
  rw [step_eq toolchain s hn]
  have hlt' : n < (s.tasks ++ s.tasks[n].sent).length := by
    rw [List.length_append]
    omega
  refine (List.set_perm_cons_eraseIdx hlt' _).trans (List.Perm.cons _ ?_)
  rw [List.eraseIdx_append_of_lt_length hlt]
  exact List.perm_append_comm

theorem begins_step {n : Nat} {toolchain : Toolchain} (hn : s.tasks[n]? = some t) :
    s.begins (.step toolchain n) = s.begun toolchain t := by
  show (s.tasks[n]?).toList.flatMap (s.begun toolchain) = _
  rw [hn]
  exact List.append_nil _

theorem begins_step_of_none {n : Nat} {toolchain : Toolchain} (hn : s.tasks[n]? = none) :
    s.begins (.step toolchain n) = [] := by
  show (s.tasks[n]?).toList.flatMap (s.begun toolchain) = []
  rw [hn]
  rfl

theorem holders_call (call : Call) (id : Nat) :
    holders id (s.tasks ++ [call.task]) = holders id s.tasks := by
  have hne : call.task.owner? ≠ some id := by cases call <;> nofun
  rw [holders_append, holders_singleton_of_ne hne, List.append_nil]

theorem Coherent.happen (h : s.Coherent starts) (event : Event) :
    (s.happen event).Coherent (starts ++ s.begins event) := by
  have hsection := h.orderly.of_section (happen_section s event)
  cases event with
  | change options tree =>
    rw [begins, List.append_nil]
    · exact ⟨hsection, h.held, h.unknown⟩
    · nofun
  | call call =>
    rw [begins, List.append_nil]
    · refine ⟨hsection, fun id a ha => ?_, fun id hid => ?_⟩
      · show a.Held _ (holders id (s.tasks ++ [call.task]))
        rw [holders_call]
        exact h.held id a ha
      · show holders id (s.tasks ++ [call.task]) = [] ∧ _
        rw [holders_call]
        exact h.unknown id hid
    · nofun
  | step toolchain n =>
    cases hn : s.tasks[n]? with
    | none =>
      rw [begins_step_of_none hn, List.append_nil]
      show (s.step toolchain n).Coherent starts
      rw [step_eq_self toolchain s hn]
      exact h
    | some t =>
      obtain ⟨rest, htasks, htasks'⟩ := step_perm toolchain hn
      rw [begins_step hn]
      refine h.of_concerns htasks htasks' hsection fun id => ?_
      have hworkshop : (s.step toolchain n).workshop = (s.act toolchain t).1.workshop := by
        rw [step_eq toolchain s hn]
      show Concerns starts _ s.workshop (s.step toolchain n).workshop t rest _ id
      rw [hworkshop]
      exact act_concerns h htasks toolchain id

/-- What every event keeps of the system and of the commands started so far, a run keeps. -/
theorem invariant_executions {P : List (Nat × Execution) → System → Prop}
    (hstep : ∀ starts s event, P starts s → P (starts ++ s.begins event) (s.happen event))
    (h : P starts s) (events : List Event) : P (starts ++ s.executions events) (s.play events) := by
  induction events generalizing s starts with
  | nil =>
    rw [executions, List.append_nil]
    exact h
  | cons event events ih =>
    rw [executions, ← List.append_assoc]
    exact ih (hstep starts s event h)

theorem Coherent.play (h : s.Coherent starts) (events : List Event) :
    (s.play events).Coherent (starts ++ s.executions events) :=
  invariant_executions (fun _ _ event h => h.happen event) h events

theorem Coherent.init (options : Options) (tree : File.Tree) :
    System.Coherent [] { options, tree } where
  orderly := .init
  held _ _ ha := by cases ha
  unknown _ _ := ⟨rfl, rfl⟩

end Invariant

/-! ### After a cancellation -/

end System

/-- Whether a task has a line in hand that it has read and not yet told. -/
def Task.isTelling : Task → Bool
  | .note _ _ _ _ | .post _ _ _ _ => true
  | _ => false

namespace System

section Cancelled

variable {starts : List (Nat × Execution)} {s : System} {id : Nat} {a : Attempt} {t : Task}

/-- A cancelled attempt tells nothing by a step of its task, unless that is about to tell a line. -/
theorem act_of_cancelled (h : s.workshop.Orderly) (ha : s.workshop.attempt? id = some a)
    (hcancelled : a.isCancelled = true) (ht : t.owner? = some id)
    (hpost : ∀ line rest code, t ≠ .post id line rest code) (toolchain : Toolchain) :
    ∃ b, (s.act toolchain t).1.workshop.attempt? id = some b ∧ b.isCancelled = true ∧
      b.messages = a.messages := by
  have hinactive : s.workshop.isActive id = false := by
    rw [Bool.eq_false_iff]
    intro hactive
    rw [h.isCancelled_eq_false ha hactive] at hcancelled
    cases hcancelled
  have hadvance : ∀ status text u, (s.advance id status text u).1.workshop = s.workshop := by
    intro status text u
    rw [advance_eq, Workshop.advance_of_inactive hinactive]
    rfl
  cases t with
  | validate | generate | compile =>
    cases ht
    rw [act, hadvance]
    exact ⟨a, ha, hcancelled, rfl⟩
  | abort i cause =>
    cases ht
    refine ⟨a, ?_, hcancelled, rfl⟩
    show (s.workshop.complete id (.failed ⟨cause, []⟩)).attempt? id = some a
    rw [Workshop.complete_of_inactive hinactive, ha]
  | conclude i completion =>
    cases ht
    refine ⟨a, ?_, hcancelled, rfl⟩
    show (s.workshop.complete id completion).attempt? id = some a
    rw [Workshop.complete_of_inactive hinactive, ha]
  | write i artifacts home =>
    obtain ⟨tree, htree⟩ := exists_writeSources s i artifacts home
    rw [act, htree]
    exact ⟨a, ha, hcancelled, rfl⟩
  | spawn i command =>
    obtain ⟨tree, outcomes, hspawn⟩ := exists_spawn toolchain s i command
    rw [act, hspawn]
    exact ⟨a, ha, hcancelled, rfl⟩
  | await i code =>
    obtain ⟨tree, hsettle⟩ := exists_settle s i
    simp only [act, hsettle]
    exact ⟨a, ha, hcancelled, rfl⟩
  | register i lines code =>
    cases ht
    rw [act, register_eq]
    exact ⟨_, Workshop.attempt?_register ha, hcancelled, rfl⟩
  | note i line rest code =>
    cases ht
    exact ⟨_, Workshop.attempt?_note ha line, hcancelled, rfl⟩
  | post i line rest code =>
    cases ht
    exact absurd rfl (hpost line rest code)
  | check | prepare | dispatch | kill | read | search => exact ⟨a, ha, hcancelled, rfl⟩
  | claim | close | withdraw | killWithdrawn | announce | rejected | started | raised | answered
  | ended => cases ht

theorem isTelling_act_of_cancelled (ha : s.workshop.attempt? id = some a)
    (hcancelled : a.isCancelled = true) (ht : t.owner? = some id) (htelling : t.isTelling = false)
    (toolchain : Toolchain) : ∀ u ∈ (s.act toolchain t).2 :: t.sent, u.isTelling = false := by
  intro u hu
  rcases List.mem_cons.mp hu with rfl | hsent
  · have hleads := act_leads toolchain s t
    cases hnext : (s.act toolchain t).2 with
    | note i line rest code =>
      rw [hnext] at hleads
      cases t with
      | read j lines code =>
        cases ht
        have hskips : s.workshop.isCancelled id = true := by
          unfold Workshop.isCancelled
          rw [ha]
          exact hcancelled
        cases lines with
        | nil => cases hnext
        | cons line lines =>
          simp only [act, nextLine, hskips, if_true] at hnext
          cases hnext
      | _ => simp [Leads] at hleads
    | post i line rest code =>
      rw [hnext] at hleads
      cases t with
      | note => cases htelling
      | post => cases htelling
      | _ => simp [Leads] at hleads
    | _ => rfl
  · cases t with
    | dispatch i command =>
      rw [List.mem_singleton.mp hsent]
      rfl
    | _ => cases hsent

def Quiet (messages : List Message) (id : Nat) (s : System) : Prop :=
  ∃ a, s.workshop.attempt? id = some a ∧ a.isCancelled = true ∧
    (a.messages = messages ∨
      (∃ level line, a.messages = messages ++ [.output id level line]) ∧
        ∀ t ∈ Task.holders id s.tasks, t.isTelling = false)

theorem Quiet.happen {messages : List Message} (hquiet : s.Quiet messages id)
    (h : s.Coherent starts) (event : Event) : (s.happen event).Quiet messages id := by
  obtain ⟨a, ha, hcancelled, htold⟩ := hquiet
  cases event with
  | change options tree => exact ⟨a, ha, hcancelled, htold⟩
  | call call =>
    refine ⟨a, ha, hcancelled, ?_⟩
    show _ ∨ _ ∧ ∀ t ∈ holders id (s.tasks ++ [call.task]), t.isTelling = false
    rw [holders_call]
    exact htold
  | step toolchain n =>
    show (s.step toolchain n).Quiet messages id
    cases hn : s.tasks[n]? with
    | none =>
      rw [step_eq_self toolchain s hn]
      exact ⟨a, ha, hcancelled, htold⟩
    | some t =>
      obtain ⟨rest, htasks, htasks'⟩ := step_perm toolchain hn
      have hbefore := holders_perm htasks id
      have hafter := holders_perm htasks' id
      rw [holders_append] at hafter
      have hworkshop : (s.step toolchain n).workshop = (s.act toolchain t).1.workshop := by
        rw [step_eq toolchain s hn]
      unfold Quiet
      rw [hworkshop]
      cases act_concerns h htasks toolchain id with
      | aside f hlike hattempt _ hholders =>
        rw [hholders, ← holders_append] at hafter
        rw [hattempt, ha, Option.map_some]
        refine ⟨f a, rfl, (hlike a).cancelled hcancelled, ?_⟩
        rw [(hlike a).messages]
        refine htold.imp_right fun ⟨hline, hquiet⟩ => ⟨hline, fun u hu => hquiet u ?_⟩
        exact hbefore.mem_iff.mpr (hafter.mem_iff.mp hu)
      | inHand hown hothers _ =>
        have hown : t.owner? = some id := hown.resolve_right (by rw [ha]; nofun)
        rw [hothers, List.append_nil] at hafter
        have hmem : t ∈ holders id s.tasks := by
          rw [hbefore.mem_iff, holders_cons_of_owner hown]
          exact List.mem_cons_self
        -- the tasks that have the attempt in hand come out of this step
        have hnext : ∀ u ∈ holders id (s.step toolchain n).tasks,
            u ∈ (s.act toolchain t).2 :: t.sent :=
          fun u hu => List.mem_of_mem_filter (hafter.mem_iff.mp hu)
        by_cases hpost : ∃ line lines code, t = .post id line lines code
        · obtain ⟨line, lines, code, rfl⟩ := hpost
          refine ⟨_, Workshop.attempt?_post ha _ line, hcancelled, .inr ⟨?_, fun u hu => ?_⟩⟩
          · rcases htold with hsame | ⟨-, hquiet⟩
            · exact ⟨_, line, by rw [← hsame]; rfl⟩
            · cases hquiet _ hmem
          · rw [List.mem_singleton.mp (hnext u hu)]
            rfl
        · simp only [not_exists] at hpost
          obtain ⟨b, hb, hbcancelled, hmessages⟩ :=
            act_of_cancelled h.orderly ha hcancelled hown hpost toolchain
          refine ⟨b, hb, hbcancelled, ?_⟩
          rw [hmessages]
          refine htold.imp_right fun ⟨hline, hquiet⟩ => ⟨hline, fun u hu => ?_⟩
          exact isTelling_act_of_cancelled ha hcancelled hown (hquiet t hmem) toolchain u (hnext u hu)

theorem Quiet.play {messages : List Message} (hquiet : s.Quiet messages id) (h : s.Coherent starts)
    (events : List Event) : (s.play events).Quiet messages id := by
  induction events generalizing s starts with
  | nil => exact hquiet
  | cons event events ih => exact ih (hquiet.happen h event) (h.happen event)

/-- A call that will answer that it cancelled an attempt has cancelled it by its first step. -/
theorem quiet_of_answered (h : s.Coherent starts) {toolchain : Toolchain} {n : Nat}
    (hn : s.tasks[n]? = some (.withdraw id)) {later : List Event}
    (hanswered : ((s.step toolchain n).play later).tasks[n]? = some (.answered true)) :
    ∃ messages, (s.step toolchain n).Quiet messages id := by
  have hactive : s.workshop.isActive id = true :=
    ((oneAtATime_of_orderly h.orderly).answered toolchain n id hn later true hanswered).symm
  obtain ⟨a, ha⟩ := h.orderly.known id (beq_iff_eq.mp hactive)
  let f := fun a : Attempt => { a with isCancelled := true, isFinished := true }
  refine ⟨a.messages, f a, ?_, rfl, .inl rfl⟩
  rw [step_eq toolchain s hn, act, withdraw_eq]
  unfold Workshop.withdraw
  rw [hactive]
  exact Workshop.attempt?_update_self (f := f) (fun _ => rfl) ha

end Cancelled

/-! ### Streams -/

/-- All messages of an attempt are a well-formed transcript of it, and the lines told are those of its
log, unless one is noted and about to be told. -/
def Recounts (output? : Option (List String)) (s : System) (a : Attempt) : Prop :=
  ∃ t : Transcript, a.messages = t.messages a.id ∧ t.WellFormed a.log output? ∧
    (a.log = t.lines.map Prod.snd ∨
      ∃ line rest code, .post a.id line rest code ∈ s.tasks ∧ a.log = t.lines.map Prod.snd ++ [line])

/-- What those who read the messages of attempts can rely on. -/
structure Streams (starts : List (Nat × Execution)) (s : System) : Prop where
  formed : ∀ a ∈ s.workshop.attempts, ∃ output?, Wrote starts a.id output? ∧ s.Recounts output? a
  /-- Once a call has answered that it cancelled an attempt, one more line at most is told. -/
  quiet : ∀ toolchain n id later latest, s.tasks[n]? = some (.withdraw id) →
    ((s.step toolchain n).play later).tasks[n]? = some (.answered true) →
    ∃ a b, ((s.step toolchain n).play later).workshop.attempt? id = some a ∧
      (((s.step toolchain n).play later).play latest).workshop.attempt? id = some b ∧
      (b.messages = a.messages ∨ ∃ level line, b.messages = a.messages ++ [.output id level line])

theorem Coherent.recounts {starts : List (Nat × Execution)} {s : System}
    (h : s.Coherent starts) {a : Attempt} (hmem : a ∈ s.workshop.attempts) :
    s.Recounts (outputOf starts a.id) a := by
  have hheld := h.held a.id a (h.orderly.attempt?_of_mem hmem)
  have hrests : a.Rests (outputOf starts a.id) → s.Recounts (outputOf starts a.id) a :=
    fun ⟨t, hmessages, hformed, hlog⟩ => ⟨t, hmessages, hformed, .inl hlog⟩
  cases hholders : holders a.id s.tasks with
  | nil =>
    rw [hholders] at hheld
    exact hrests hheld
  | cons t rest =>
    rw [hholders] at hheld
    obtain ⟨-, hfits⟩ := hheld.of_cons
    have htask : t ∈ holders a.id s.tasks := hholders ▸ List.mem_cons_self
    obtain ⟨htask, howner⟩ := List.mem_filter.mp htask
    rw [beq_iff_eq] at howner
    cases t with
    | validate => exact hrests (Attempt.Early.current hfits List.nil_prefix).rests
    | check | generate | write | prepare | compile =>
      exact hrests (Attempt.Early.current hfits ⟨_, rfl⟩).rests
    | dispatch | spawn => exact hrests (Attempt.Early.current hfits List.prefix_rfl).rests
    | register | kill | read | await | search => exact hrests (Attempt.Hears.current hfits).rests
    | abort | conclude => exact hrests (Attempt.Ends.toCurrent hfits).rests
    | note id line rest code =>
      obtain ⟨htells, houtput⟩ := hfits
      have hcurrent : a.Current (outputOf starts a.id) :=
        ⟨⟨opening, List.prefix_rfl, fun _ => rfl, htells⟩, by
          rw [houtput]
          exact List.prefix_append _ _⟩
      exact hrests hcurrent.rests
    | post id line rest code =>
      cases howner
      obtain ⟨lines, ⟨t, hmessages, hsteps, rfl, hnone⟩, hlog, houtput⟩ := hfits
      refine ⟨t, hmessages, ⟨?_, fun _ => hsteps, ?_, ?_, ?_, ?_⟩, .inr ⟨line, rest, code, htask, hlog⟩⟩
      · exact hsteps ▸ List.prefix_rfl
      · rw [hlog]
        exact List.prefix_append _ _
      · rw [houtput]
        exact List.prefix_append _ _
      · rw [hnone]
        exact nofun
      · rw [hnone]
        exact nofun
    | claim | close | withdraw | killWithdrawn | announce | rejected | started | raised | answered
    | ended => cases howner

/-- However calls and steps come between each other, messages are well formed. -/
theorem streams_play (options : Options) (tree : File.Tree) (events : List Event) :
    (play { options, tree } events).Streams (executions { options, tree } events) := by
  have h := (Coherent.init options tree).play events
  rw [List.nil_append] at h
  refine ⟨fun a ha => ⟨_, wrote_outputOf _ a.id, h.recounts ha⟩, fun toolchain n id later latest hn hanswered => ?_⟩
  obtain ⟨messages, hquiet⟩ := quiet_of_answered h hn hanswered
  have hstep := h.happen (.step toolchain n)
  obtain ⟨a, ha, hcancelled, -⟩ := hquiet.play hstep later
  have hfrom : ((play { options, tree } events).step toolchain n |>.play later).Quiet a.messages id :=
    ⟨a, ha, hcancelled, .inl rfl⟩
  obtain ⟨b, hb, -, htold⟩ := hfrom.play (hstep.play later) latest
  exact ⟨a, b, ha, hb, htold.imp_right And.left⟩

end System

end Keyforge.Build
