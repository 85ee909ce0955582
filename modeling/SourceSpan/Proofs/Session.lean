import Mathlib.Data.List.Induction
import SourceSpan.Log.Logger

/-!
# Runs of a program that logs

A program sets the journal up, gets loggers, derives others from them and makes log entries, in any
order and as often as it likes. After any such run the journal is as the last setup that was
understood has left it: it has one writer, and what passes and what is written have the same level.
A setup that is not understood touches nothing, although a journal is set up in several steps. So an
entry is written exactly once if it is urgent enough, however often the journal has been set up
before.

The one level at which nothing is ever written is the level of entries that are not given one, and
whatever lies below it.
-/

namespace SourceSpan

namespace Record

variable {record layer : Record} {name : String} {v : Value}

theorem forall_put {P : String → Prop} (hrecord : ∀ entry ∈ record, P entry.1) (hname : P name) :
    ∀ entry ∈ record.put name v, P entry.1 := by
  intro entry hentry
  unfold put at hentry
  split_ifs at hentry
  · obtain ⟨old, hold, rfl⟩ := List.mem_map.mp hentry
    split_ifs
    · exact hname
    · exact hrecord old hold
  · rcases List.mem_append.mp hentry with hold | hnew
    · exact hrecord entry hold
    · cases List.mem_singleton.mp hnew
      exact hname

/-- Laying records over each other brings no new names. -/
theorem forall_overlay (P : String → Prop) (hrecord : ∀ entry ∈ record, P entry.1)
    (hlayer : ∀ entry ∈ layer, P entry.1) : ∀ entry ∈ record.overlay layer, P entry.1 := by
  unfold overlay
  induction layer generalizing record with
  | nil => exact hrecord
  | cons first rest ih =>
      apply ih
      · exact forall_put hrecord (hlayer first List.mem_cons_self)
      · exact fun entry hentry => hlayer entry (List.mem_cons_of_mem _ hentry)

end Record

namespace Log

/-! ### Setting up in place -/

namespace Journal

/-- What names the level of a setup: what is asked for, or what stands in the settings. -/
def wanted (settings : Settings) : Value → Value
  | .null => .text settings.logLevel
  | v => v

theorem setup_eq (settings : Settings) (v : Value) :
    setup settings v = (Level.ofValue (wanted settings v)).map fun level => ⟨level, [level]⟩ := by
  have hbind : ∀ named : Except Report Level,
      (named >>= fun level => pure ⟨level, [level]⟩) =
        named.map fun level => (⟨level, [level]⟩ : Journal) := by
    intro named
    cases named <;> rfl
  cases v <;> exact hbind _

/-- Sets a journal up part by part. A new writer is given its level, then the journal is given its
level, and then the new writer takes the place of the old ones. -/
def install (settings : Settings) (v : Value) : ExceptT Report (StateM Journal) Unit := do
  let writer ← MonadExcept.ofExcept (Level.ofValue (wanted settings v))
  let least ← MonadExcept.ofExcept (Level.ofValue (wanted settings v))
  modify fun journal => { journal with level := least }
  modify fun journal => { journal with writers := [] }
  modify fun journal => { journal with writers := journal.writers ++ [writer] }

/-- Setting up in place is all or nothing: the first part that can fail comes before the first
change, and the second one fails only if the first one does. -/
theorem run_install (settings : Settings) (v : Value) (journal : Journal) :
    (install settings v).run.run journal =
      match setup settings v with
      | .ok journal' => (.ok (), journal')
      | .error report => (.error report, journal) := by
  rw [setup_eq]
  cases hlevel : Level.ofValue (wanted settings v) with
  | error report =>
      simp only [install, hlevel]
      rfl
  | ok level =>
      simp only [install, hlevel]
      rfl

end Journal

/-! ### Sessions -/

/-- A program's journal, and the loggers that it keeps, each under a name of its own. -/
structure Session where
  journal : Journal
  loggers : List (String × Logger)

/-- One thing that a program does with its journal or its loggers. -/
inductive Action where
  | setup (level : Value)
  | getLogger (id name : String) (context : Record)
  | withContext (parent id : String) (context : Record)
  | log (id : String) (level : Level) (message : String) (extra : Record) (subject : Subject)

namespace Session

/-- Keeps a logger, if there is one. -/
def keep (session : Session) (id : String) :
    Except Report Logger → Except Report (List Line) × Session
  | .error report => (.error report, session)
  | .ok logger => (.ok [], { session with loggers := (id, logger) :: session.loggers })

/-- The lines that an action leaves, or the report that it ends in, and the session after it.
Nothing can be done with a logger that the program does not have. -/
def perform (tasks : Bool) (settings : Settings) (session : Session) :
    Action → Except Report (List Line) × Session
  | .setup v =>
    let (result, journal) := (Journal.install settings v).run.run session.journal
    (result.map fun _ => [], { session with journal := journal })
  | .getLogger id name context => session.keep id (Logger.make name context)
  | .withContext parent id context =>
    match session.loggers.lookup parent with
    | none => (.ok [], session)
    | some logger => session.keep id (logger.derive context)
  | .log id level message extra subject =>
    match session.loggers.lookup id with
    | none => (.ok [], session)
    | some logger =>
      (session.journal.write logger level message extra subject (.plain tasks), session)

/-- The session after some actions. -/
def run (tasks : Bool) (settings : Settings) (session : Session) (actions : List Action) :
    Session :=
  actions.foldl (fun session action => (session.perform tasks settings action).2) session

end Session

variable {tasks : Bool} {settings : Settings} {session : Session} {actions : List Action}

/-! ### The journal after a run -/

/-- The level that an action sets up, if it is a setup that is understood. -/
def Action.level? (settings : Settings) : Action → Option Level
  | .setup v => (Level.ofValue (Journal.wanted settings v)).toOption
  | _ => none

/-- The level of the last setup that was understood. -/
def lastLevel? (settings : Settings) (actions : List Action) : Option Level :=
  actions.reverse.findSome? (Action.level? settings)

namespace Session

theorem perform_setup (tasks : Bool) (settings : Settings) (session : Session) (v : Value) :
    session.perform tasks settings (.setup v) =
      match Level.ofValue (Journal.wanted settings v) with
      | .ok level => (.ok [], { session with journal := ⟨level, [level]⟩ })
      | .error report => (.error report, session) := by
  rw [perform, Journal.run_install, Journal.setup_eq]
  cases Level.ofValue (Journal.wanted settings v) <;> rfl

theorem journal_keep (id : String) (made : Except Report Logger) :
    (session.keep id made).2.journal = session.journal := by
  cases made <;> rfl

/-- Only a setup that is understood changes the journal. -/
theorem journal_perform (tasks : Bool) (settings : Settings) (session : Session) (action : Action) :
    (session.perform tasks settings action).2.journal =
      match action.level? settings with
      | some level => ⟨level, [level]⟩
      | none => session.journal := by
  cases action with
  | setup v =>
      rw [perform_setup, Action.level?]
      cases Level.ofValue (Journal.wanted settings v) <;> rfl
  | getLogger id name context => exact journal_keep id _
  | withContext parent id context =>
      rw [perform]
      cases session.loggers.lookup parent with
      | none => rfl
      | some logger => exact journal_keep id _
  | log id level message extra subject =>
      rw [perform]
      cases session.loggers.lookup id <;> rfl

theorem run_concat (tasks : Bool) (settings : Settings) (session : Session) (actions : List Action)
    (action : Action) :
    session.run tasks settings (actions ++ [action]) =
      ((session.run tasks settings actions).perform tasks settings action).2 := by
  rw [run, List.foldl_append]
  rfl

theorem journal_run (tasks : Bool) (settings : Settings) (session : Session)
    (actions : List Action) :
    (session.run tasks settings actions).journal =
      match lastLevel? settings actions with
      | some level => ⟨level, [level]⟩
      | none => session.journal := by
  -- The last action of a run decides, so the induction takes actions off the end.
  induction actions using List.reverseRecOn with
  | nil => rfl
  | append_singleton actions action ih =>
      rw [run_concat, journal_perform, lastLevel?, List.reverse_append, List.reverse_singleton,
        List.singleton_append, List.findSome?_cons]
      cases action.level? settings with
      | some level => rfl
      | none => exact ih

end Session

/-! ### The loggers after a run -/

namespace Logger

variable {logger : Logger} {name : String} {first : Record}

theorem make_eq_ok (h : Logger.make name first = .ok logger) :
    logger = ⟨if name = "" then rootName else name, first⟩ := by
  unfold Logger.make at h
  split at h
  · cases h
  · cases h
    rfl

theorem derive_eq_ok {context : Record} {child : Logger} (h : logger.derive context = .ok child) :
    child = logger.withContext context := by
  unfold Logger.derive at h
  split at h
  · cases h
  · cases h
    rfl

end Logger

/-- No name in a record is one that every log entry uses itself. -/
def Clean (tasks : Bool) (record : Record) : Prop :=
  ∀ entry ∈ record, entry.1 ∉ reservedNames tasks

theorem Clean.overlay {record layer : Record} (hrecord : Clean tasks record)
    (hlayer : Clean tasks layer) : Clean tasks (record.overlay layer) :=
  Record.forall_overlay (· ∉ reservedNames tasks) hrecord hlayer

/-- What an action adds to the context of an entry is clean. -/
def Action.Clean (tasks : Bool) : Action → Prop
  | .setup _ => True
  | .getLogger _ _ context => Log.Clean tasks context
  | .withContext _ _ context => Log.Clean tasks context
  | .log _ _ _ extra _ => Log.Clean tasks extra

namespace Session

/-- All loggers that are kept have clean contexts. -/
def Clean (tasks : Bool) (session : Session) : Prop :=
  ∀ kept ∈ session.loggers, Log.Clean tasks kept.2.context

theorem clean_of_lookup {id : String} {logger : Logger} (hsession : session.Clean tasks)
    (hlookup : session.loggers.lookup id = some logger) : Log.Clean tasks logger.context := by
  obtain ⟨front, back, hloggers, -⟩ := List.lookup_eq_some_iff.mp hlookup
  apply hsession (id, logger)
  rw [hloggers]
  simp

theorem clean_keep {id : String} {made : Except Report Logger} (hsession : session.Clean tasks)
    (hmade : ∀ logger, made = .ok logger → Log.Clean tasks logger.context) :
    (session.keep id made).2.Clean tasks := by
  cases made with
  | error report => exact hsession
  | ok logger =>
      intro kept hkept
      rcases List.mem_cons.mp hkept with rfl | hkept
      · exact hmade logger rfl
      · exact hsession kept hkept

theorem clean_perform {action : Action} (hsession : session.Clean tasks)
    (haction : action.Clean tasks) :
    (session.perform tasks settings action).2.Clean tasks := by
  cases action with
  | setup v =>
      rw [perform_setup]
      cases Level.ofValue (Journal.wanted settings v) <;> exact hsession
  | getLogger id name context =>
      apply clean_keep hsession
      intro logger hmade
      rw [Logger.make_eq_ok hmade]
      exact haction
  | withContext parent id context =>
      rw [perform]
      cases hlookup : session.loggers.lookup parent with
      | none => exact hsession
      | some logger =>
          apply clean_keep hsession
          intro child hmade
          rw [Logger.derive_eq_ok hmade]
          exact (clean_of_lookup hsession hlookup).overlay haction
  | log id level message extra subject =>
      rw [perform]
      cases session.loggers.lookup id <;> exact hsession

theorem clean_run (hsession : session.Clean tasks)
    (hactions : ∀ action ∈ actions, action.Clean tasks) :
    (session.run tasks settings actions).Clean tasks := by
  induction actions using List.reverseRecOn with
  | nil => exact hsession
  | append_singleton actions action ih =>
      rw [run_concat]
      apply clean_perform
      · exact ih fun other hother => hactions other (List.mem_append_left _ hother)
      · exact hactions action (List.mem_append_right _ (List.mem_singleton.mpr rfl))

end Session

/-! ### Entries -/

namespace Journal

/-- An entry that uses none of the names of entries is handed to each writer that it is urgent enough
for. -/
theorem enter_of_clean {journal : Journal} {said : Record} {backend : Backend} (logger : String)
    (level : Level) (message : String) (subject : Subject) (hclean : Clean backend.tasks said) :
    journal.enter logger level message said subject backend =
      backend.deliver (Line.make level logger message said subject)
        (journal.writers.countP (· ≤ level)) := by
  have hparts : said.find? (fun entry => entry.1 ∈ partNames backend.tasks) = none := by
    rw [List.find?_eq_none]
    intro entry hentry hpart
    exact hclean entry hentry (List.mem_cons_of_mem _ (of_decide_eq_true hpart))
  have htelling : said.any (·.1 == tellingName) = false := by
    rw [List.any_eq_false]
    intro entry hentry hname
    exact hclean entry hentry (List.mem_cons.mpr (.inl (eq_of_beq hname)))
  rw [enter, hparts]
  simp only [htelling]
  rw [if_neg Bool.false_ne_true]

/-- A journal with one writer at its own level writes an entry once, or not at all. -/
theorem write_of_clean {logger : Logger} {extra : Record} (least level : Level)
    (message : String) (subject : Subject) (hlogger : Clean tasks logger.context)
    (hextra : Clean tasks extra) :
    (⟨least, [least]⟩ : Journal).write logger level message extra subject (.plain tasks) =
      .ok (if Level.notSet < level ∧ least ≤ level then
        [Line.make level logger.name message (Record.overlay extra logger.context) subject]
      else []) := by
  have hsaid : Clean (Backend.plain tasks).tasks (Record.overlay extra logger.context) :=
    hextra.overlay hlogger
  by_cases hpasses : Level.notSet < level ∧ least ≤ level
  · rw [write, if_pos (by simpa [passes] using hpasses), enter_of_clean _ _ _ _ hsaid,
      if_pos hpasses]
    simp [Backend.deliver, Backend.plain, hpasses.2]
  · rw [write, if_neg (by simpa [passes] using hpasses), if_neg hpasses]

end Journal

namespace Session

/-- A run with two loggers and three setups. The second one takes its level from the settings and
the third one is not understood. -/
def busyActions : List Action :=
  [.setup (.text "DEBUG"), .getLogger "a" "app" [("user", .int 7)], .setup .null,
    .withContext "a" "b" [("line", .int 3)], .setup (.text "debug")]

end Session

end Log

end SourceSpan
