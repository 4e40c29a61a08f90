import Keyforge.Proofs.Build.Interleaving
import Keyforge.Proofs.Firmware.Staging

/-!
# Starting an attempt

A start takes the place first and gives it back on every failure that it tells of. A failure to look
at the home directory or to write the sources that is not a refusal of the system is raised, and
then the place stays taken (`System.Breaks`). The stages are gone through from the last to the first:
each says how the call ends if it is still `AtWork` there.
-/

namespace Keyforge.Build.System

open Firmware (Artifacts)

/-! ### Outcomes of a start -/

/-- The sources cannot be written, for a reason that is not told as a failure of the attempt. -/
def WriteBreaks (s : System) (artifacts : Artifacts) (home : File.Path) : Prop :=
  artifacts.keyboard? = none ∨ ∃ keyboard error, artifacts.keyboard? = some keyboard ∧
    (artifacts.write (keymapDirectory home keyboard artifacts.keymap) s.tree).2 = .error error ∧
    error.isRefusal = false

/-- Something goes wrong that a start does not tell as a failure of the attempt. -/
def Breaks (s : System) (artifacts : Artifacts) : Prop :=
  artifacts.report.isValid = true ∧ ∃ home, s.options.home? = some home ∧
    ((∃ error, s.tree.look home File.Tree.isDirectory = .error error) ∨
      s.tree.look home File.Tree.isDirectory = .ok true ∧ s.WriteBreaks artifacts home)

/-- The attempt compiles, and its worker has been sent off. -/
structure Underway (s s' : System) (id : Nat) : Prop where
  active : s'.workshop.active? = some id
  status : s'.workshop.status = .compiling
  worker : ∃ command, s'.tasks = s.tasks ++ [.spawn id command]

/-- The attempt has failed, which is the last that it tells, and the place is free again. -/
structure FailedAtOnce (s s' : System) (id : Nat) : Prop where
  free : s'.workshop.active? = none
  idle : s'.workshop.status = .idle
  tasks : s'.tasks = s.tasks
  told : ∃ a cause, s'.workshop.attempt? id = some a ∧
    a.messages.getLast? = some (.complete id (.failed ⟨cause, []⟩))

/-- A call that is over and has made an attempt of what was asked for. -/
def Settles (s : System) (id : Nat) (r : System × Task) : Prop :=
  r.2 = .started id ∧ (s.Underway r.1 id ∨ s.FailedAtOnce r.1 id)

/-- A call that is over and has left the place taken. -/
def LeavesTaken (id : Nat) (r : System × Task) : Prop :=
  (∃ error, r.2 = .raised id error) ∧ r.1.workshop.active? = some id

/-! ### The stages -/

/-- The call for an attempt is at work: it has the place, and there is no worker yet. -/
structure AtWork (s s' : System) (id : Nat) : Prop where
  tasks : s'.tasks = s.tasks
  options : s'.options = s.options
  active : s'.workshop.active? = some id
  known : ∃ a, s'.workshop.attempt? id = some a

section Stages

variable (toolchain : Toolchain) {s s' : System} {id : Nat}

variable (h : s.AtWork s' id)

include h

theorem AtWork.advance (status : Status) (text : String) (next : Task) :
    ∃ w, s'.advance id status text next = (s'.withWorkshop w, next) ∧
      s.AtWork (s'.withWorkshop w) id ∧ w.status = status := by
  have hactive : s'.workshop.isActive id = true := beq_iff_eq.mpr h.active
  obtain ⟨a, ha⟩ := h.known
  have hadvance : (s'.workshop.advance id status text).2 =
      { s'.workshop.update id (·.put (.progress id status text)) with status } := by
    unfold Workshop.advance
    rw [if_pos hactive]
  refine ⟨(s'.workshop.advance id status text).2, ?_, ⟨h.tasks, h.options, ?_, ?_⟩, ?_⟩
  · rw [advance_eq, if_pos hactive]
  · show (s'.workshop.advance id status text).2.active? = some id
    rw [hadvance]
    exact h.active
  · show ∃ a, (s'.workshop.advance id status text).2.attempt? id = some a
    rw [hadvance]
    exact ⟨_, Workshop.attempt?_update_self (f := (·.put (.progress id status text)))
      (fun _ => rfl) ha⟩
  · rw [hadvance]

theorem AtWork.finish_abort (cause : Cause) :
    s.Settles id (s'.finish toolchain (.abort id cause)) := by
  have hactive : s'.workshop.isActive id = true := beq_iff_eq.mpr h.active
  obtain ⟨a, ha⟩ := h.known
  have hfinish : s'.finish toolchain (.abort id cause) =
      (s'.withWorkshop (s'.workshop.complete id (.failed ⟨cause, []⟩)), .started id) :=
    (finish_act rfl).trans (finish_of_isOver rfl)
  have htold := Workshop.attempt?_complete hactive ha (.failed ⟨cause, []⟩)
  rw [hfinish]
  rw [Workshop.complete_of_active hactive] at htold ⊢
  exact ⟨rfl, .inr ⟨rfl, rfl, h.tasks, _, cause, htold, List.getLast?_concat⟩⟩

theorem AtWork.finish_compile (command : List String) :
    s.Settles id (s'.finish toolchain (.compile id command)) := by
  obtain ⟨w, hadvance, hwork, hstatus⟩ := h.advance .compiling
    ("Running " ++ String.intercalate " " command) (.dispatch id command)
  have hfinish : s'.finish toolchain (.compile id command) =
      ({ s'.withWorkshop w with tasks := s'.tasks ++ [.spawn id command] }, .started id) := by
    rw [finish_act rfl, act, hadvance]
    exact (finish_act rfl).trans (finish_of_isOver rfl)
  rw [hfinish]
  exact ⟨rfl, .inl ⟨hwork.active, hstatus, command, by rw [h.tasks]⟩⟩

theorem AtWork.finish_prepare (artifacts : Artifacts) :
    s.Settles id (s'.finish toolchain (.prepare id artifacts)) := by
  rw [finish_act rfl, act]
  unfold prepared
  split
  · exact h.finish_abort toolchain _
  · exact h.finish_compile toolchain _

theorem AtWork.finish_write (htree : s'.tree = s.tree) (artifacts : Artifacts) (home : File.Path) :
    (s.WriteBreaks artifacts home →
      LeavesTaken id (s'.finish toolchain (.write id artifacts home))) ∧
    (¬ s.WriteBreaks artifacts home →
      s.Settles id (s'.finish toolchain (.write id artifacts home))) := by
  have hraised : ∀ tree error,
      LeavesTaken id (finish toolchain { s' with tree } (.raised id error)) := by
    intro tree error
    rw [finish_of_isOver rfl]
    exact ⟨⟨error, rfl⟩, h.active⟩
  have hwork : ∀ tree, s.AtWork { s' with tree } id :=
    fun tree => ⟨h.tasks, h.options, h.active, h.known⟩
  rw [finish_act rfl, act]
  unfold writeSources WriteBreaks
  cases hkeyboard : artifacts.keyboard? with
  | none => exact ⟨fun _ => hraised s'.tree _, fun hnot => absurd (.inl rfl) hnot⟩
  | some keyboard =>
    dsimp only
    rw [htree]
    cases hresult : (artifacts.write (keymapDirectory home keyboard artifacts.keymap) s.tree).2 with
    | ok paths =>
      refine ⟨?_, fun _ => (hwork _).finish_prepare toolchain artifacts⟩
      rintro (hnone | ⟨keyboard', error, hkeyboard', herror, -⟩)
      · cases hnone
      · cases hkeyboard'
        rw [hresult] at herror
        cases herror
    | error error =>
      -- the outcome depends on whether the system refused
      have hbreaks : (some keyboard = none ∨ ∃ keyboard' error', some keyboard = some keyboard' ∧
          (artifacts.write (keymapDirectory home keyboard' artifacts.keymap) s.tree).2 =
            .error error' ∧ error'.isRefusal = false) ↔ error.isRefusal = false := by
        constructor
        · rintro (hnone | ⟨keyboard', error', hkeyboard', herror, hrefusal⟩)
          · cases hnone
          · cases hkeyboard'
            rw [hresult] at herror
            cases herror
            exact hrefusal
        · exact fun hrefusal => .inr ⟨keyboard, error, rfl, hresult, hrefusal⟩
      rw [hbreaks]
      cases error with
      | file e =>
        show (e.isRefusal = false → _) ∧ (¬ e.isRefusal = false → _)
        dsimp only
        cases hrefusal : e.isRefusal with
        | true =>
          refine ⟨fun hfalse => ?_, fun _ => (hwork _).finish_abort toolchain _⟩
          cases hfalse
        | false => exact ⟨fun _ => hraised _ _, fun hnot => absurd rfl hnot⟩
      | name e => exact ⟨fun _ => hraised _ _, fun hnot => absurd rfl hnot⟩
      | noKeyboard => exact ⟨fun _ => hraised _ _, fun hnot => absurd rfl hnot⟩

theorem AtWork.finish_check (htree : s'.tree = s.tree) (artifacts : Artifacts) :
    (s.Breaks artifacts → LeavesTaken id (s'.finish toolchain (.check id artifacts))) ∧
    (¬ s.Breaks artifacts → s.Settles id (s'.finish toolchain (.check id artifacts))) := by
  rw [finish_act rfl, act]
  unfold checked Breaks
  rw [h.options, htree]
  cases hvalid : artifacts.report.isValid with
  | false =>
    refine ⟨fun hbreaks => ?_, fun _ => h.finish_abort toolchain _⟩
    cases hbreaks.1
  | true =>
    cases hhome : s.options.home? with
    | none =>
      refine ⟨fun hbreaks => ?_, fun _ => h.finish_abort toolchain _⟩
      obtain ⟨-, home, hhome, -⟩ := hbreaks
      cases hhome
    | some home =>
      dsimp only
      cases hlook : s.tree.look home File.Tree.isDirectory with
      | error error =>
        refine ⟨fun _ => ?_, fun hnot => absurd ⟨rfl, home, rfl, .inl ⟨error, hlook⟩⟩ hnot⟩
        show LeavesTaken id (s'.finish toolchain (.raised id (.file error)))
        rw [finish_of_isOver rfl]
        exact ⟨⟨_, rfl⟩, h.active⟩
      | ok isDirectory =>
        cases isDirectory with
        | false =>
          refine ⟨fun hbreaks => ?_, fun _ => h.finish_abort toolchain _⟩
          obtain ⟨-, home', hhome', hbreaks⟩ := hbreaks
          cases hhome'
          rw [hlook] at hbreaks
          rcases hbreaks with ⟨error, herror⟩ | ⟨hdirectory, -⟩
          · cases herror
          · cases hdirectory
        | true =>
          obtain ⟨w, hadvance, hwork, -⟩ := h.advance .generating "Writing firmware sources"
            (.write id artifacts home)
          have hwrite := hwork.finish_write toolchain htree artifacts home
          show (_ → LeavesTaken id (s'.finish toolchain (.generate id artifacts home))) ∧
            (_ → s.Settles id (s'.finish toolchain (.generate id artifacts home)))
          rw [finish_act rfl, act, hadvance]
          refine ⟨fun hbreaks => hwrite.1 ?_, fun hnot => hwrite.2 fun hbreaks => hnot ?_⟩
          · obtain ⟨-, home', hhome', hbreaks⟩ := hbreaks
            cases hhome'
            rw [hlook] at hbreaks
            rcases hbreaks with ⟨error, herror⟩ | ⟨-, hbreaks⟩
            · cases herror
            · exact hbreaks
          · exact ⟨rfl, home, rfl, .inr ⟨hlook, hbreaks⟩⟩

end Stages

/-! ### Starts -/

theorem start_of_active (toolchain : Toolchain) {s : System} (hactive : s.workshop.active? ≠ none)
    (artifacts : Artifacts) : s.start toolchain artifacts = (s, .rejected) := by
  have hfinish : s.finish toolchain (.claim artifacts) = (s, .rejected) := by
    rw [finish_act rfl, act_claim_of_active toolchain artifacts hactive, finish_of_isOver rfl]
  unfold start
  rw [hfinish]

theorem finish_claim_of_free (toolchain : Toolchain) {s : System} (h : s.workshop.Orderly)
    (hfree : s.workshop.active? = none) (artifacts : Artifacts) :
    (s.Breaks artifacts →
      LeavesTaken s.workshop.nextId (s.finish toolchain (.claim artifacts))) ∧
    (¬ s.Breaks artifacts →
      s.Settles s.workshop.nextId (s.finish toolchain (.claim artifacts))) := by
  obtain ⟨w, hclaim, hact⟩ := exists_act_claim_of_free toolchain artifacts hfree
  have hknown := Workshop.attempt?_of_claim hclaim s.workshop.nextId
  rw [h.attempt?_nextId, if_pos rfl, Option.none_or] at hknown
  have hactive : w.active? = some s.workshop.nextId := by
    obtain ⟨-, -, rfl⟩ := Workshop.claim_eq_some hclaim
    rfl
  have hwork : s.AtWork (s.withWorkshop w) s.workshop.nextId := ⟨rfl, rfl, hactive, _, hknown⟩
  obtain ⟨w', hadvance, hwork, -⟩ := hwork.advance .validating "Validating layout"
    (.check s.workshop.nextId artifacts)
  rw [finish_act rfl, hact]
  dsimp only
  rw [finish_act rfl, act, hadvance]
  exact hwork.finish_check toolchain rfl artifacts

theorem place_of_look_error {tree : File.Tree} {p : File.Path} {error : File.Error}
    {see : File.Tree → File.Path → Bool} (h : tree.look p see = .error error) :
    tree.place p = .refused .nameTooLong := by
  unfold File.Tree.look at h
  split at h
  · cases h
  · split at h
    next hplace => exact hplace
    next => cases h

theorem not_breaks_of_askable {s : System} {artifacts : Artifacts} {home : File.Path}
    {keyboard : String} (hhome : s.options.home? = some home)
    (hkeyboard : artifacts.keyboard? = some keyboard)
    (hplace : s.tree.place home ≠ .refused .nameTooLong)
    (haskable : artifacts.Askable (keymapDirectory home keyboard artifacts.keymap)) :
    ¬ s.Breaks artifacts := by
  rintro ⟨-, home', hhome', hbreaks⟩
  rw [hhome] at hhome'
  cases hhome'
  rcases hbreaks with ⟨error, herror⟩ | ⟨-, hnone | ⟨keyboard', error, hkeyboard', herror, hrefusal⟩⟩
  · exact hplace (place_of_look_error herror)
  · rw [hkeyboard] at hnone
    cases hnone
  · rw [hkeyboard] at hkeyboard'
    cases hkeyboard'
    rw [Artifacts.isRefusal_of_write haskable herror] at hrefusal
    cases hrefusal

/-- What a start comes to, whatever is asked for and whatever the state is. -/
theorem start_settles_unless_breaks {s : System} (h : s.workshop.Orderly) (toolchain : Toolchain)
    (artifacts : Artifacts) :
    -- it is refused and changes nothing,
    (s.workshop.active? ≠ none → s.start toolchain artifacts = (s, .rejected)) ∧
    -- or it makes an attempt that compiles or has failed,
    (s.workshop.active? = none → ¬ s.Breaks artifacts →
      ∃ s', s.start toolchain artifacts = (s', .attempt s.workshop.nextId) ∧
        (s.Underway s' s.workshop.nextId ∨ s.FailedAtOnce s' s.workshop.nextId)) ∧
    -- or it raises an error, and then no later start is given the place;
    (s.workshop.active? = none → s.Breaks artifacts →
      ∃ s' error, s.start toolchain artifacts = (s', .raised error) ∧
        s'.workshop.active? = some s.workshop.nextId ∧
        ∀ toolchain' artifacts', s'.start toolchain' artifacts' = (s', .rejected)) ∧
    -- the last only if names or contents are such that the system cannot be asked to write them.
    ∀ home keyboard, s.options.home? = some home → artifacts.keyboard? = some keyboard →
      s.tree.place home ≠ .refused .nameTooLong →
      artifacts.Askable (keymapDirectory home keyboard artifacts.keymap) → ¬ s.Breaks artifacts := by
  refine ⟨fun hactive => start_of_active toolchain hactive artifacts, fun hfree hnot => ?_,
    fun hfree hbreaks => ?_, fun home keyboard => not_breaks_of_askable⟩
  · obtain ⟨hstarted, houtcome⟩ := (finish_claim_of_free toolchain h hfree artifacts).2 hnot
    refine ⟨(s.finish toolchain (.claim artifacts)).1, ?_, houtcome⟩
    unfold start
    generalize s.finish toolchain (.claim artifacts) = r at hstarted ⊢
    obtain ⟨s', t⟩ := r
    cases hstarted
    rfl
  · obtain ⟨⟨error, hraised⟩, hactive⟩ :=
      (finish_claim_of_free toolchain h hfree artifacts).1 hbreaks
    refine ⟨(s.finish toolchain (.claim artifacts)).1, error, ?_, hactive,
      fun toolchain' artifacts' => ?_⟩
    · unfold start
      generalize s.finish toolchain (.claim artifacts) = r at hraised ⊢
      obtain ⟨s', t⟩ := r
      cases hraised
      rfl
    · exact start_of_active toolchain' (by rw [hactive]; nofun) artifacts'

def furnished : System :=
  { options := { home? := some ⟨"", ["qmk"]⟩ }, tree := ⟨[(["qmk"], .directory)]⟩ }

/-- Sources of which one is to be written into a directory below. -/
def nestedSource : Artifacts :=
  { keyboard? := some "board", keymap := "km", files := [("sub/b.c", "x")] }

def noCommands : Toolchain := fun _ home _ => .error (.refused .missing home.text)

theorem breaks_nestedSource : furnished.Breaks nestedSource := by
  refine ⟨by decide, ⟨"", ["qmk"]⟩, rfl, .inr ⟨by decide +kernel, .inr ⟨"board",
    .name (.invalid ".sub/b.c.tmp"), rfl, by decide +kernel, rfl⟩⟩⟩

/-- The temporary name of such a source is not a single name, and so the place stays taken. -/
theorem start_settles_unless_breaks_nestedSource :
    furnished.Breaks nestedSource ∧
      ∃ s' error, furnished.start noCommands nestedSource = (s', .raised error) ∧
        s'.workshop.active? = some 1 ∧
        ∀ toolchain' artifacts', s'.start toolchain' artifacts' = (s', .rejected) :=
  ⟨breaks_nestedSource,
    (start_settles_unless_breaks .init noCommands nestedSource).2.2.1 rfl breaks_nestedSource⟩

end Keyforge.Build.System
