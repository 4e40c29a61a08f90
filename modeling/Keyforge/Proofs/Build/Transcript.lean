import Keyforge.Proofs.Build.Interleaving

/-!
# Transcripts

What the messages of an attempt say: the stages it came to, the lines its command wrote, and how it
ended. While a task has an attempt in hand, how far the task is says how far the messages are
(`Task.Fits`).
-/

namespace Keyforge.Build

variable {steps : List Status}

/-! ### What messages say -/

structure Transcript where
  steps : List (Status × String) := []
  lines : List (Level × String) := []
  completion? : Option Completion := none

/-- The stages of an attempt before its command is run. -/
def opening : List Status := [.validating, .generating, .compiling]

namespace Transcript

def messages (id : Nat) (t : Transcript) : List Message :=
  t.steps.map (fun step => .progress id step.1 step.2) ++
    (t.lines.map fun line => .output id line.1 line.2) ++
    t.completion?.toList.flatMap fun c => [.progress id c.status c.text, .complete id c]

/-- What is required of a transcript, given the log of the attempt and the output of its command, if
that was started. -/
structure WellFormed (log : List String) (output? : Option (List String)) (t : Transcript) :
    Prop where
  steps : t.steps.map Prod.fst <+: opening
  /-- Only an attempt that came to its command tells lines. -/
  lines : t.lines ≠ [] → t.steps.map Prod.fst = opening
  /-- The lines are those of the log, in order, and the log is a first part of the output. -/
  told : t.lines.map Prod.snd <+: log
  noted : log <+: output?.getD []
  /-- If the command came to its end, all of its output is in the log. -/
  whole : ∀ c, t.completion? = some c → c.code? ≠ none → output? = some log
  carried : ∀ code failureLog, t.completion? = some (.failed ⟨.exited code, failureLog⟩) →
    failureLog = log

end Transcript

namespace Attempt

/-- The messages of an attempt say that it came to these stages, that its command wrote these lines,
and how it ended. -/
def Tells (steps : List Status) (lines : List String) (completion? : Option Completion)
    (a : Attempt) : Prop :=
  ∃ t : Transcript, a.messages = t.messages a.id ∧ t.steps.map Prod.fst = steps ∧
    t.lines.map Prod.snd = lines ∧ t.completion? = completion?

theorem Tells.progress {a : Attempt} (h : a.Tells steps [] none) (status : Status) (text : String) :
    (a.put (.progress a.id status text)).Tells (steps ++ [status]) [] none := by
  obtain ⟨⟨told, lines, completion?⟩, hmessages, rfl, hlines, rfl⟩ := h
  rw [List.map_eq_nil_iff] at hlines
  subst hlines
  refine ⟨⟨told ++ [(status, text)], [], none⟩, ?_, by simp, rfl, rfl⟩
  show a.messages ++ [.progress a.id status text] = _
  rw [hmessages]
  simp [Transcript.messages, put]

theorem Tells.output {a : Attempt} {lines : List String} (h : a.Tells steps lines none)
    (level : Level) (line : String) :
    (a.put (.output a.id level line)).Tells steps (lines ++ [line]) none := by
  obtain ⟨⟨told, lines, completion?⟩, hmessages, rfl, rfl, rfl⟩ := h
  refine ⟨⟨told, lines ++ [(level, line)], none⟩, ?_, rfl, by simp, rfl⟩
  show a.messages ++ [.output a.id level line] = _
  rw [hmessages]
  simp [Transcript.messages, put]

theorem Tells.complete {a : Attempt} {lines : List String} (h : a.Tells steps lines none)
    (completion : Completion) :
    (a.completed a.id completion).Tells steps lines (some completion) := by
  obtain ⟨⟨told, lines, completion?⟩, hmessages, rfl, rfl, rfl⟩ := h
  refine ⟨⟨told, lines, some completion⟩, ?_, rfl, rfl, rfl⟩
  show a.messages ++ [.progress a.id completion.status completion.text] ++
    [.complete a.id completion] = _
  rw [hmessages]
  simp [Transcript.messages, put, completed]

/-! ### Stages -/

structure Early (steps : List Status) (output? : Option (List String)) (a : Attempt) : Prop where
  tells : a.Tells steps [] none
  log : a.log = []
  output : output? = none

/-- An attempt whose command was started, and whose worker has still to read `rest`. -/
structure Hears (output? : Option (List String)) (rest : List String) (a : Attempt) : Prop where
  tells : a.Tells opening a.log none
  output : ∃ dropped, output? = some (a.log ++ dropped ++ rest) ∧
    (dropped ≠ [] → a.isCancelled = true)

/-- An attempt that has not been completed and has told all of its log. -/
structure Current (output? : Option (List String)) (a : Attempt) : Prop where
  tells : ∃ steps, steps <+: opening ∧ (a.log ≠ [] → steps = opening) ∧ a.Tells steps a.log none
  noted : a.log <+: output?.getD []

structure Ends (output? : Option (List String)) (completion : Completion) (a : Attempt) : Prop
    extends a.Current output? where
  whole : completion.code? ≠ none → a.isCancelled = false → output? = some a.log
  carried : ∀ code failureLog, completion = .failed ⟨.exited code, failureLog⟩ → failureLog = a.log

/-- An attempt of which nothing more is told. -/
def Rests (output? : Option (List String)) (a : Attempt) : Prop :=
  ∃ t : Transcript, a.messages = t.messages a.id ∧ t.WellFormed a.log output? ∧
    a.log = t.lines.map Prod.snd

section Stages

variable {a : Attempt} {output? : Option (List String)} {rest : List String}
  {completion : Completion}

theorem Early.advance (h : a.Early steps output?) (status : Status) (text : String) :
    (a.put (.progress a.id status text)).Early (steps ++ [status]) output? where
  tells := h.tells.progress status text
  log := h.log
  output := h.output

theorem Early.current (h : a.Early steps output?) (hsteps : steps <+: opening) :
    a.Current output? where
  tells := ⟨steps, hsteps, fun hlog => absurd h.log hlog, h.log ▸ h.tells⟩
  noted := h.log ▸ List.nil_prefix

theorem Early.ends (h : a.Early steps output?) (hsteps : steps <+: opening)
    (hcode : completion.code? = none) : a.Ends output? completion where
  toCurrent := h.current hsteps
  whole hcode' := absurd hcode hcode'
  carried code failureLog hfailed := by
    subst hfailed
    cases hcode

theorem Early.hears (h : a.Early opening output?) (lines : List String) :
    a.Hears (some lines) lines where
  tells := h.log ▸ h.tells
  output := ⟨[], by rw [h.log]; rfl, fun hdropped => absurd rfl hdropped⟩

theorem Hears.drop {line : String} (h : a.Hears output? (line :: rest))
    (hcancelled : a.isCancelled = true) : a.Hears output? rest where
  tells := h.tells
  output := by
    obtain ⟨dropped, houtput, -⟩ := h.output
    exact ⟨dropped ++ [line], by simp [houtput], fun _ => hcancelled⟩

theorem Hears.output_eq (h : a.Hears output? rest) (hkept : a.isCancelled = false) :
    output? = some (a.log ++ rest) := by
  obtain ⟨dropped, houtput, hdropped⟩ := h.output
  have hnone : dropped = [] := by
    by_contra hne
    rw [hdropped hne] at hkept
    cases hkept
  rw [houtput, hnone, List.append_nil]

theorem Hears.current (h : a.Hears output? rest) : a.Current output? where
  tells := ⟨opening, List.prefix_rfl, fun _ => rfl, h.tells⟩
  noted := by
    obtain ⟨dropped, houtput, -⟩ := h.output
    rw [houtput, Option.getD_some, List.append_assoc]
    exact List.prefix_append _ _

theorem Hears.ends (h : a.Hears output? [])
    (hcarried : ∀ code failureLog, completion = .failed ⟨.exited code, failureLog⟩ →
      failureLog = a.log) : a.Ends output? completion where
  toCurrent := h.current
  whole _ hkept := by rw [h.output_eq hkept, List.append_nil]
  carried := hcarried

theorem Tells.rests {completion? : Option Completion} (h : a.Tells steps a.log completion?)
    (hsteps : steps <+: opening) (hlines : a.log ≠ [] → steps = opening)
    (hnoted : a.log <+: output?.getD [])
    (hwhole : ∀ c, completion? = some c → c.code? ≠ none → output? = some a.log)
    (hcarried : ∀ code failureLog, completion? = some (.failed ⟨.exited code, failureLog⟩) →
      failureLog = a.log) : a.Rests output? := by
  obtain ⟨t, hmessages, rfl, hlog, rfl⟩ := h
  refine ⟨t, hmessages, ⟨hsteps, fun hne => hlines ?_, hlog ▸ List.prefix_rfl, hnoted, hwhole,
    hcarried⟩, hlog.symm⟩
  rw [← hlog]
  simpa using hne

theorem Current.rests (h : a.Current output?) : a.Rests output? := by
  obtain ⟨steps, hsteps, hlines, htells⟩ := h.tells
  exact htells.rests hsteps hlines h.noted nofun nofun

theorem Ends.rests_complete (h : a.Ends output? completion) (hkept : a.isCancelled = false) :
    (a.completed a.id completion).Rests output? := by
  obtain ⟨steps, hsteps, hlines, htells⟩ := h.tells
  refine (htells.complete completion).rests hsteps hlines h.noted (fun c hc hcode => ?_)
    fun code failureLog hc => ?_
  · cases hc
    exact h.whole hcode hkept
  · exact h.carried code failureLog (Option.some.inj hc)

end Stages

/-! ### Changes that tell nothing -/

/-- One attempt after another that was told and noted the same. -/
structure Like (a b : Attempt) : Prop where
  id : b.id = a.id
  messages : b.messages = a.messages
  log : b.log = a.log
  cancelled : a.isCancelled = true → b.isCancelled = true

section Changes

variable {a b : Attempt} {lines rest : List String} {output? : Option (List String)}
  {completion? : Option Completion} {completion : Completion}

theorem Tells.like (h : a.Tells steps lines completion?) (hlike : a.Like b) :
    b.Tells steps lines completion? := by
  unfold Tells
  rw [hlike.messages, hlike.id]
  exact h

theorem Early.like (h : a.Early steps output?) (hlike : a.Like b) : b.Early steps output? where
  tells := h.tells.like hlike
  log := hlike.log.trans h.log
  output := h.output

theorem Hears.like (h : a.Hears output? rest) (hlike : a.Like b) : b.Hears output? rest where
  tells := hlike.log ▸ h.tells.like hlike
  output := by
    obtain ⟨dropped, houtput, hdropped⟩ := h.output
    exact ⟨dropped, hlike.log ▸ houtput, fun hne => hlike.cancelled (hdropped hne)⟩

theorem Ends.like (h : a.Ends output? completion) (hlike : a.Like b) : b.Ends output? completion where
  tells := by
    obtain ⟨steps, hsteps, hlines, htells⟩ := h.tells
    rw [hlike.log]
    exact ⟨steps, hsteps, hlines, htells.like hlike⟩
  noted := hlike.log ▸ h.noted
  whole hcode hkept := by
    have hkept : a.isCancelled = false := by
      rw [Bool.eq_false_iff]
      intro hcancelled
      rw [hlike.cancelled hcancelled] at hkept
      cases hkept
    rw [hlike.log]
    exact h.whole hcode hkept
  carried := hlike.log ▸ h.carried

theorem Rests.like (h : a.Rests output?) (hlike : a.Like b) : b.Rests output? := by
  unfold Rests
  rw [hlike.messages, hlike.id, hlike.log]
  exact h

end Changes

end Attempt

/-! ### Tasks and their attempts -/

namespace Task

/-- The attempt that a task has in hand. -/
def owner? : Task → Option Nat
  | .validate id _ | .check id _ | .generate id _ _ | .write id _ _ | .prepare id _ | .compile id _
  | .dispatch id _ | .abort id _ | .spawn id _ | .register id _ _ | .kill id _ _ | .read id _ _
  | .note id _ _ _ | .post id _ _ _ | .await id _ | .search id | .conclude id _ => some id
  | _ => none

/-- How an attempt stands while a task has it in hand. -/
def Fits (output? : Option (List String)) (a : Attempt) : Task → Prop
  | .validate _ _ => a.Early [] output?
  | .check _ _ | .generate _ _ _ => a.Early [.validating] output?
  | .write _ _ _ | .prepare _ _ | .compile _ _ => a.Early [.validating, .generating] output?
  | .dispatch _ _ | .spawn _ _ => a.Early opening output?
  | .abort _ cause => a.Ends output? (.failed ⟨cause, []⟩)
  | .register _ rest _ | .kill _ rest _ | .read _ rest _ => a.Hears output? rest
  -- A line that was read before the attempt was cancelled is still noted and told.
  | .note _ line rest _ => a.Tells opening a.log none ∧ output? = some (a.log ++ line :: rest)
  | .post _ line rest _ =>
    ∃ lines, a.Tells opening lines none ∧ a.log = lines ++ [line] ∧ output? = some (a.log ++ rest)
  | .await _ _ | .search _ => a.Hears output? []
  | .conclude _ completion => a.Ends output? completion
  | _ => True

theorem Fits.like {output? : Option (List String)} {a b : Attempt} {t : Task}
    (h : t.Fits output? a) (hlike : a.Like b) : t.Fits output? b := by
  cases t with
  | validate | check | generate | write | prepare | compile | dispatch | spawn =>
    exact Attempt.Early.like h hlike
  | register | kill | read | await | search => exact Attempt.Hears.like h hlike
  | abort | conclude => exact Attempt.Ends.like h hlike
  | note id line rest code =>
    obtain ⟨htells, houtput⟩ := h
    exact ⟨hlike.log ▸ htells.like hlike, hlike.log ▸ houtput⟩
  | post id line rest code =>
    obtain ⟨lines, htells, hlog, houtput⟩ := h
    exact ⟨lines, htells.like hlike, hlike.log ▸ hlog, hlike.log ▸ houtput⟩
  | claim | close | withdraw | killWithdrawn | announce | rejected | started | raised | answered
  | ended => trivial

end Task

end Keyforge.Build
