import Mathlib.Data.List.Nodup
import SourceSpan.Log.Store
import SourceSpan.Proofs.Session

/-!
# What a log line tells

What an entry says is put together from the record that it is given and from the contexts that its
logger has got on the way from the first one: where several of them have a name, the last counts.
A line tells all of it, each name once: a fact about the node at the top of the line and everything
else in the context of the line. Names of the line itself do not get in the way, because what is
said under such a name is told in the context.

An entry says nothing that would replace one of its own parts, it is refused instead. One name is
dropped on the way, and one makes the entry get lost.

A logger keeps its context in a cell. A derived logger has a cell of its own, so what is put into it
is seen by no other logger. The context of a logger changes only if its cell is handed to an entry.
-/

namespace SourceSpan

/-! ### Records as maps -/

namespace Record

variable {record layer : Record} {name key : String} {v : Value}

/-- No name stands for two values. -/
def Distinct (record : Record) : Prop :=
  (record.map Prod.fst).Nodup

instance (record : Record) : Decidable record.Distinct :=
  inferInstanceAs (Decidable (List.Nodup _))

theorem lookup_entry (entry : String × Value) (rest : Record) (key : String) :
    List.lookup key (entry :: rest) = if key = entry.1 then some entry.2 else rest.lookup key := by
  obtain ⟨name, v⟩ := entry
  rw [List.lookup_cons]
  by_cases hkey : key = name
  · simp [hkey]
  · have hbeq : (key == name) = false := beq_eq_false_iff_ne.mpr hkey
    rw [hbeq, if_neg hkey]

theorem lookup_eq_none_iff_notMem : record.lookup key = none ↔ key ∉ record.map Prod.fst := by
  induction record with
  | nil => simp
  | cons entry rest ih =>
      rw [lookup_entry, List.map_cons, List.mem_cons, not_or]
      split_ifs with hkey
      · simp [hkey]
      · simp [hkey, ih]

theorem any_iff_mem : record.any (·.1 == name) = true ↔ name ∈ record.map Prod.fst := by
  simp only [List.any_eq_true, List.mem_map, beq_iff_eq]

theorem lookup_replaced (record : Record) (name key : String) (v : Value) :
    (record.map fun entry => if entry.1 == name then (name, v) else entry).lookup key =
      if key = name then (record.lookup key).map fun _ => v else record.lookup key := by
  induction record with
  | nil => simp
  | cons entry rest ih =>
      rw [List.map_cons, lookup_entry, lookup_entry, ih]
      by_cases hentry : entry.1 = name
      · by_cases hkey : key = name <;> simp [hentry, hkey]
      · by_cases hkey : key = entry.1 <;> simp [hentry, hkey]

theorem lookup_put :
    (record.put name v).lookup key = if key = name then some v else record.lookup key := by
  unfold put
  split_ifs with hany hkey hkey
  · obtain rfl := hkey
    rw [lookup_replaced, if_pos rfl]
    obtain ⟨old, hold⟩ : ∃ old, record.lookup key = some old := by
      rw [← Option.ne_none_iff_exists', Ne, lookup_eq_none_iff_notMem]
      exact fun hnot => hnot (any_iff_mem.mp hany)
    rw [hold, Option.map_some]
  · rw [lookup_replaced, if_neg hkey]
  · obtain rfl := hkey
    have hnone : record.lookup key = none :=
      lookup_eq_none_iff_notMem.mpr fun hmem => hany (any_iff_mem.mpr hmem)
    rw [List.lookup_append, hnone, lookup_entry, if_pos rfl, Option.none_or]
  · rw [List.lookup_append, lookup_entry, if_neg hkey, List.lookup_nil, Option.or_none]

theorem Distinct.put (h : record.Distinct) : (record.put name v).Distinct := by
  unfold Record.put
  split_ifs with hany
  · have hnames : (record.map fun entry => if entry.1 == name then (name, v) else entry).map
        Prod.fst = record.map Prod.fst := by
      rw [List.map_map]
      apply List.map_congr_left
      intro entry _
      by_cases hentry : entry.1 = name <;> simp [hentry]
    rw [Distinct, hnames]
    exact h
  · have hfresh : name ∉ record.map Prod.fst := fun hmem => hany (any_iff_mem.mpr hmem)
    rw [Distinct, List.map_append, List.nodup_append]
    refine ⟨h, List.nodup_singleton name, ?_⟩
    rintro old hold _ hnew rfl
    obtain rfl := List.mem_singleton.mp hnew
    exact hfresh hold

theorem Distinct.overlay (h : record.Distinct) (layer : Record) :
    (record.overlay layer).Distinct := by
  unfold Record.overlay
  induction layer generalizing record with
  | nil => exact h
  | cons entry rest ih => exact ih h.put

/-- A record that is laid over another one goes before it. -/
theorem lookup_overlay (hlayer : layer.Distinct) :
    (record.overlay layer).lookup key = (layer.lookup key).or (record.lookup key) := by
  induction layer generalizing record with
  | nil => rfl
  | cons entry rest ih =>
      obtain ⟨hfresh, hrest⟩ := List.nodup_cons.mp hlayer
      change ((record.put entry.1 entry.2).overlay rest).lookup key = _
      rw [ih hrest, lookup_put, lookup_entry]
      split_ifs with hkey
      · obtain rfl := hkey
        rw [lookup_eq_none_iff_notMem.mpr hfresh, Option.none_or, Option.some_or]
      · rfl

theorem lookup_filter (keeps : String → Bool) (record : Record) (key : String) :
    (record.filter fun entry => keeps entry.1).lookup key =
      if keeps key then record.lookup key else none := by
  induction record with
  | nil => simp
  | cons entry rest ih =>
      rw [List.filter_cons, lookup_entry]
      by_cases hkey : key = entry.1
      · obtain rfl := hkey
        by_cases hkeeps : keeps entry.1
        · rw [if_pos hkeeps, lookup_entry, if_pos rfl, if_pos hkeeps, if_pos rfl]
        · rw [if_neg hkeeps, ih, if_neg hkeeps, if_neg hkeeps]
      · by_cases hkeeps : keeps entry.1
        · rw [if_pos hkeeps, lookup_entry, if_neg hkey, ih, if_neg hkey]
        · rw [if_neg hkeeps, ih, if_neg hkey]

theorem isEmpty_eq_false_iff : record.isEmpty = false ↔ ∃ name, (record.lookup name).isSome := by
  cases record with
  | nil => simp
  | cons entry rest =>
      refine ⟨fun _ => ⟨entry.1, ?_⟩, fun _ => rfl⟩
      rw [lookup_entry, if_pos rfl, Option.isSome_some]

/-- The entries of some names, those that have no value left out. -/
theorem lookup_filterMap (value? : String → Option Value) (names : List String) (key : String) :
    (names.filterMap fun name => (value? name).map fun v => (name, v)).lookup key =
      if key ∈ names then value? key else none := by
  induction names with
  | nil => simp
  | cons name rest ih =>
      rw [List.filterMap_cons]
      by_cases hkey : key = name
      · obtain rfl := hkey
        rw [if_pos List.mem_cons_self]
        cases hvalue : value? key with
        | none => simp [ih, hvalue]
        | some v => simp
      · have hmem : key ∈ name :: rest ↔ key ∈ rest := by
          rw [List.mem_cons, or_iff_right hkey]
        simp only [hmem]
        cases value? name with
        | none => exact ih
        | some v =>
            rw [Option.map_some, lookup_entry, if_neg hkey]
            exact ih

/-- What a name stands for when records are laid over each other: the last record that has the name
decides. -/
def latest? (records : List Record) (name : String) : Option Value :=
  records.reverse.findSome? (·.lookup name)

theorem latest?_cons (record : Record) (records : List Record) (name : String) :
    latest? (record :: records) name = (latest? records name).or (record.lookup name) := by
  rw [latest?, List.reverse_cons, List.findSome?_append, List.findSome?_cons, latest?]
  cases record.lookup name <;> rfl

end Record

namespace Log

/-! ### Loggers that are derived from each other -/

namespace Logger

variable {logger last : Logger} {name key : String} {first : Record} {rest : List Record}

/-- The logger that is got with a first context and derived with further ones, one after the other.
-/
def chain (name : String) (first : Record) (rest : List Record) : Except Report Logger := do
  let logger ← Logger.make name first
  rest.foldlM Logger.derive logger

theorem foldlM_derive_eq_ok (h : rest.foldlM Logger.derive logger = .ok last) :
    last = rest.foldl Logger.withContext logger := by
  induction rest generalizing logger with
  | nil =>
      cases h
      rfl
  | cons context rest ih =>
      rw [List.foldlM_cons] at h
      cases hchild : logger.derive context with
      | error report =>
          rw [hchild] at h
          cases h
      | ok child =>
          rw [hchild] at h
          obtain rfl := derive_eq_ok hchild
          exact ih h

theorem chain_eq_ok (h : chain name first rest = .ok logger) :
    logger = rest.foldl Logger.withContext ⟨if name = "" then rootName else name, first⟩ := by
  unfold chain at h
  cases hmade : Logger.make name first with
  | error report =>
      rw [hmade] at h
      cases h
  | ok made =>
      rw [hmade] at h
      obtain rfl := make_eq_ok hmade
      exact foldlM_derive_eq_ok h

theorem name_foldl_withContext (rest : List Record) (logger : Logger) :
    (rest.foldl Logger.withContext logger).name = logger.name := by
  induction rest generalizing logger with
  | nil => rfl
  | cons context rest ih => exact ih (logger.withContext context)

theorem distinct_foldl_withContext (rest : List Record) (h : logger.context.Distinct) :
    (rest.foldl Logger.withContext logger).context.Distinct := by
  induction rest generalizing logger with
  | nil => exact h
  | cons context rest ih =>
      have hchild : (logger.withContext context).context.Distinct := h.overlay context
      exact ih hchild

/-- The context of a derived logger: the last one that has a name decides. -/
theorem lookup_foldl_withContext (hrest : ∀ context ∈ rest, context.Distinct) :
    (rest.foldl Logger.withContext logger).context.lookup key =
      (Record.latest? rest key).or (logger.context.lookup key) := by
  induction rest generalizing logger with
  | nil => rfl
  | cons context rest ih =>
      have hcontext := hrest context List.mem_cons_self
      rw [List.foldl_cons, ih fun other hother => hrest other (List.mem_cons_of_mem _ hother),
        Record.latest?_cons, Option.or_assoc]
      exact congrArg _ (Record.lookup_overlay hcontext)

section Chain

variable {extra : Record} (hlogger : chain name first rest = .ok logger)
  (hdistinct : ∀ record ∈ extra :: first :: rest, record.Distinct)

include hlogger

theorem name_chain : logger.name = if name = "" then rootName else name := by
  rw [chain_eq_ok hlogger, name_foldl_withContext]

include hdistinct

/-- What an entry says: the last context of its logger that has a name decides, and what the entry
itself is given comes before them all. -/
theorem lookup_said (key : String) :
    (Record.overlay extra logger.context).lookup key =
      Record.latest? (extra :: first :: rest) key := by
  have hfirst := hdistinct first (List.mem_cons_of_mem _ List.mem_cons_self)
  have hrest : ∀ context ∈ rest, context.Distinct := fun context hmem =>
    hdistinct context (List.mem_cons_of_mem _ (List.mem_cons_of_mem _ hmem))
  rw [chain_eq_ok hlogger, Record.lookup_overlay (distinct_foldl_withContext rest hfirst),
    lookup_foldl_withContext hrest, Record.latest?_cons, Record.latest?_cons]

end Chain

end Logger

/-! ### Lines -/

/-- A line tells of an entry with this level, logger, message and subject, in which `said` says what
the names stand for. What is said is told once: facts about the node among the facts, and all else
but the dropped name in the context, which is left out if it would be empty. -/
structure Line.Tells (line : Line) (level : Level) (logger message : String) (subject : Subject)
    (said : String → Option Value) : Prop where
  level_eq : line.level = level
  logger_eq : line.logger = logger
  message_eq : line.message = message
  error_eq : line.error = subject.block?
  distinct_facts : line.facts.Distinct
  lookup_facts : ∀ name, line.facts.lookup name = if name ∈ nodeFacts then said name else none
  distinct_context : line.context.Distinct
  lookup_context : ∀ name, line.context.lookup name =
    if name ∈ nodeFacts ∨ name = taskName then none else said name
  nodup_keys : line.keys.Nodup
  mem_keys : ∀ key, key ∈ line.keys ↔
    key ∈ ["timestamp", "level", "logger", "message"] ∨ (key ∈ nodeFacts ∧ (said key).isSome) ∨
      (key = "context" ∧ ∃ name, name ∉ nodeFacts ∧ name ≠ taskName ∧ (said name).isSome) ∨
      (key = "error" ∧ subject.block?.isSome) ∨ key = "source"

namespace Line

variable {tasks : Bool} {level : Level} {logger message : String} {subject : Subject}
  {said : Record}

theorem names_facts :
    (make level logger message said subject).facts.map Prod.fst =
      nodeFacts.filter fun name => (said.lookup name).isSome := by
  change (nodeFacts.filterMap fun name =>
    (said.lookup name).map fun v => (name, v)).map Prod.fst = _
  rw [List.map_filterMap, ← List.filterMap_eq_filter]
  apply List.filterMap_congr
  intro name _
  cases hname : said.lookup name <;> simp [Option.guard, hname]

/-- What a line leaves out of its context is the task, and parts of which nothing can be said. -/
theorem mem_heldBack {name : String} (h : name ∈ heldBack) (tasks : Bool) :
    name = taskName ∨ name ∈ partNames tasks := by
  have hall : ∀ name ∈ heldBack, name = taskName ∨ name ∈ partNames false := by decide
  refine (hall name h).imp_right fun hpart => ?_
  rw [partNames, if_neg Bool.false_ne_true, List.append_nil] at hpart
  exact List.mem_append_left _ hpart

theorem lookup_context_make (hclean : ∀ part ∈ partNames tasks, said.lookup part = none)
    (name : String) :
    (make level logger message said subject).context.lookup name =
      if name ∈ nodeFacts ∨ name = taskName then none else said.lookup name := by
  change (said.filter fun entry => !(entry.1 ∈ nodeFacts) && !(entry.1 ∈ heldBack)).lookup name = _
  rw [Record.lookup_filter fun name => !(name ∈ nodeFacts) && !(name ∈ heldBack)]
  by_cases hfact : name ∈ nodeFacts
  · simp [hfact]
  · by_cases htask : name = taskName
    · have hheld : taskName ∈ heldBack := by decide
      subst htask
      simp [hheld]
    · by_cases hheld : name ∈ heldBack
      · have hpart := (mem_heldBack hheld tasks).resolve_left htask
        simp [hheld, hclean name hpart]
      · simp [hfact, htask, hheld]

theorem context_make_isEmpty (hclean : ∀ part ∈ partNames tasks, said.lookup part = none) :
    (make level logger message said subject).context.isEmpty = false ↔
      ∃ name, name ∉ nodeFacts ∧ name ≠ taskName ∧ (said.lookup name).isSome := by
  rw [Record.isEmpty_eq_false_iff]
  apply exists_congr
  intro name
  rw [lookup_context_make hclean]
  split_ifs with hname
  · simp only [Option.isSome_none, Bool.false_eq_true, false_iff]
    rintro ⟨hfact, hdropped, -⟩
    exact hname.elim hfact hdropped
  · rw [not_or] at hname
    simp [hname]

/-- No two of the names at the top of a line are the same, whatever is said. -/
theorem nodup_keys_make : (make level logger message said subject).keys.Nodup := by
  have hall : (["timestamp", "level", "logger", "message"] ++ nodeFacts ++ ["context"] ++
      ["error"] ++ ["source"]).Nodup := by decide
  refine List.Nodup.sublist ?_ hall
  unfold keys
  rw [names_facts]
  refine ((((List.Sublist.refl _).append List.filter_sublist).append ?_).append ?_).append
    (List.Sublist.refl _)
  · split_ifs
    · exact List.nil_sublist _
    · exact List.Sublist.refl _
  · split_ifs
    · exact List.Sublist.refl _
    · exact List.nil_sublist _

theorem mem_keys_make (hclean : ∀ part ∈ partNames tasks, said.lookup part = none) (key : String) :
    key ∈ (make level logger message said subject).keys ↔
      key ∈ ["timestamp", "level", "logger", "message"] ∨
      (key ∈ nodeFacts ∧ (said.lookup key).isSome) ∨
      (key = "context" ∧
        ∃ name, name ∉ nodeFacts ∧ name ≠ taskName ∧ (said.lookup name).isSome) ∨
      (key = "error" ∧ subject.block?.isSome) ∨ key = "source" := by
  have hcontext : (make level logger message said subject).context.isEmpty = false ↔ _ :=
    context_make_isEmpty hclean
  have hunless (b : Bool) (name : String) :
      key ∈ (if b then [] else [name]) ↔ key = name ∧ b = false := by
    cases b <;> simp
  have hif (b : Bool) (name : String) :
      key ∈ (if b then [name] else []) ↔ key = name ∧ b = true := by
    cases b <;> simp
  unfold keys
  rw [names_facts, ← hcontext]
  simp only [List.mem_append, hunless, hif, List.mem_filter, List.mem_singleton, or_assoc]
  rfl

/-- A line tells what was said, if nothing was said about the parts of the entry. -/
theorem tells_make (hsaid : said.Distinct)
    (hclean : ∀ part ∈ partNames tasks, said.lookup part = none) :
    (make level logger message said subject).Tells level logger message subject
      (fun name => said.lookup name) where
  level_eq := rfl
  logger_eq := rfl
  message_eq := rfl
  error_eq := rfl
  distinct_facts := by
    have hfacts : nodeFacts.Nodup := by decide
    rw [Record.Distinct, names_facts]
    exact hfacts.sublist List.filter_sublist
  lookup_facts := Record.lookup_filterMap (fun name => said.lookup name) nodeFacts
  distinct_context := hsaid.sublist (List.filter_sublist.map Prod.fst)
  lookup_context := lookup_context_make hclean
  nodup_keys := nodup_keys_make
  mem_keys := mem_keys_make hclean

end Line

/-! ### Contexts in cells -/

namespace Handle

variable {cells : Cells}

theorem run_fill (cell : Nat) (context : Record) (cells : Cells) :
    (fill cell context).run cells = ((), cells.modify cell (·.overlay context)) := by
  unfold fill
  induction context generalizing cells with
  | nil => exact congrArg _ (List.modify_id cell cells).symm
  | cons entry rest ih =>
      rw [List.forM_cons]
      refine (ih (cells.modify cell (·.put entry.1 entry.2))).trans ?_
      rw [List.modify_modify_eq]
      rfl

/-- Deriving in place adds a cell and leaves the others as they are. -/
theorem run_derive (parent : Handle) (context : Record) (cells : Cells) :
    (parent.derive context).run cells = (⟨parent.name, cells.length⟩,
      cells ++ [((parent.logger cells).withContext context).context]) := by
  have hcell : (cells ++ [(parent.logger cells).context]).modify cells.length (·.overlay context) =
      cells ++ [(parent.logger cells).context.overlay context] := by
    rw [List.modify_eq_take_drop, List.take_left, List.drop_left, List.modifyHead_cons]
  have hfill := run_fill cells.length context (cells ++ [(parent.logger cells).context])
  rw [hcell] at hfill
  exact congrArg (fun result : Unit × Cells => ((⟨parent.name, cells.length⟩ : Handle), result.2))
    hfill

theorem logger_run_derive (parent : Handle) (context : Record) (cells : Cells) :
    (⟨parent.name, cells.length⟩ : Handle).logger
      (cells ++ [((parent.logger cells).withContext context).context]) =
        (parent.logger cells).withContext context := by
  rw [logger, List.getElem?_concat_length]
  rfl

/-- Deriving in place any number of times gives the logger that is derived by value, and only adds
cells. -/
theorem run_foldlM_derive (contexts : List Record) (parent : Handle) (cells : Cells) :
    ∃ child more, (contexts.foldlM derive parent).run cells = (child, cells ++ more) ∧
      child.logger (cells ++ more) = contexts.foldl Logger.withContext (parent.logger cells) := by
  induction contexts generalizing parent cells with
  | nil => exact ⟨parent, [], by rw [List.append_nil]; rfl, by rw [List.append_nil]; rfl⟩
  | cons context rest ih =>
      obtain ⟨child, more, hrun, hlogger⟩ := ih ⟨parent.name, cells.length⟩
        (cells ++ [((parent.logger cells).withContext context).context])
      rw [logger_run_derive, List.append_assoc] at hlogger
      rw [List.append_assoc] at hrun
      refine ⟨child, _, ?_, hlogger⟩
      rw [List.foldlM_cons, StateT.run_bind, run_derive]
      exact hrun

theorem run_log (handle : Handle) (journal : Journal) (level : Level) (message : String)
    (extra : Nat) (subject : Subject) (backend : Backend) (cells : Cells) :
    (handle.log journal level message extra subject backend).run cells =
      if journal.passes level then
        let filled := cells.modify extra (·.overlay (handle.logger cells).context)
        (journal.enter handle.name level message (filled[extra]?.getD []) subject backend, filled)
      else (.ok [], cells) := by
  unfold log
  by_cases hpasses : journal.passes level = true
  · simp only [if_pos hpasses]
    exact congrArg (fun result : Unit × Cells =>
      (journal.enter handle.name level message (result.2[extra]?.getD []) subject backend,
        result.2))
      (run_fill extra (handle.logger cells).context cells)
  · simp only [if_neg hpasses]
    rfl

/-- Making an entry in place leaves the lines that it leaves by value. The context of the logger
stays in the record that the entry was given. -/
theorem run_log_eq_write (handle : Handle) {extra : Nat} (hextra : extra < cells.length)
    (journal : Journal) (level : Level) (message : String) (subject : Subject)
    (backend : Backend) :
    (handle.log journal level message extra subject backend).run cells =
      (journal.write (handle.logger cells) level message (cells[extra]?.getD []) subject backend,
        if journal.passes level then
          cells.modify extra (·.overlay (handle.logger cells).context)
        else cells) := by
  have hsaid : (cells.modify extra (·.overlay (handle.logger cells).context))[extra]?.getD [] =
      Record.overlay (cells[extra]?.getD []) (handle.logger cells).context := by
    rw [List.getElem?_modify_eq, List.getElem?_eq_getElem hextra]
    rfl
  rw [run_log, Journal.write]
  split_ifs
  · rw [← hsaid]
    rfl
  · rfl

/-- The second logger makes an entry with the context of the first one. From then on the first one
tells the depth that only the second one knows. -/
example : ∃ lines cells line,
    ((⟨"app", 1⟩ : Handle).log ⟨20, [20]⟩ 20 "m" 0 .nothing .standard).run
      [[("user", .int 7)], [("depth", .int 2)]] = (lines, cells) ∧
    (⟨20, [20]⟩ : Journal).write ((⟨"app", 0⟩ : Handle).logger cells) 20 "n" [] .nothing =
      .ok [line] ∧
    line.facts = [("depth", .int 2)] :=
  ⟨_, _, _, rfl, rfl, rfl⟩

end Handle

namespace Move

variable {cells : Cells} {handle : Handle} {moves : List Move}

/-- The cell that is handed to an entry. -/
def lent? : Move → Option Nat
  | .hold _ => none
  | .derive .. => none
  | .log _ _ _ extra _ => some extra

/-- The records after some moves. -/
def run (journal : Journal) (backend : Backend) (moves : List Move) (cells : Cells) : Cells :=
  moves.foldl (fun cells move => ((move.perform journal backend).run cells).2) cells

/-- A move changes at most the record that is handed to an entry. -/
theorem getElem?_perform (move : Move) {cell : Nat} (hcell : cell < cells.length)
    (hlent : move.lent? ≠ some cell) (journal : Journal) (backend : Backend) :
    (((move.perform journal backend).run cells).2)[cell]? = cells[cell]? ∧
      cells.length ≤ ((move.perform journal backend).run cells).2.length := by
  cases move with
  | hold record =>
      change (cells ++ [record])[cell]? = _ ∧ cells.length ≤ (cells ++ [record]).length
      exact ⟨List.getElem?_append_left hcell, by simp⟩
  | derive parent context =>
      have hrun : ((perform journal backend (.derive parent context)).run cells).2 =
          ((parent.derive context).run cells).2 := rfl
      rw [hrun, Handle.run_derive]
      exact ⟨List.getElem?_append_left hcell, by simp⟩
  | log parent level message extra subject =>
      have hother : extra ≠ cell := fun hsame => hlent (congrArg some hsame)
      have hrun :
          ((perform journal backend (.log parent level message extra subject)).run cells).2 =
            ((parent.log journal level message extra subject backend).run cells).2 := rfl
      rw [hrun, Handle.run_log]
      split_ifs
      · refine ⟨List.getElem?_modify_ne _ _ hother, Nat.le_of_eq ?_⟩
        exact (List.length_modify ..).symm
      · exact ⟨rfl, Nat.le_refl _⟩

/-- A logger stays as it is as long as its own context is not handed to an entry. -/
theorem logger_run (hcell : handle.cell < cells.length)
    (hlent : ∀ move ∈ moves, move.lent? ≠ some handle.cell) (journal : Journal)
    (backend : Backend) :
    handle.logger (run journal backend moves cells) = handle.logger cells := by
  induction moves generalizing cells with
  | nil => rfl
  | cons move rest ih =>
      obtain ⟨hsame, hlength⟩ :=
        move.getElem?_perform hcell (hlent move List.mem_cons_self) journal backend
      refine (ih (Nat.lt_of_lt_of_le hcell hlength) fun other hother =>
        hlent other (List.mem_cons_of_mem _ hother)).trans ?_
      rw [Handle.logger, Handle.logger, hsame]

end Move

/-! ### Entries -/

theorem clean_of_lookup_eq_none {tasks : Bool} {record : Record}
    (h : ∀ own ∈ reservedNames tasks, record.lookup own = none) : Clean tasks record := by
  intro entry hentry hown
  have hnone := Record.lookup_eq_none_iff_notMem.mp (h entry.1 hown)
  exact hnone (List.mem_map_of_mem hentry)

namespace Journal

variable {journal : Journal} {logger : Logger} {name : String} {extra first said : Record}
  {rest : List Record} {level : Level} {backend : Backend}

/-- An entry is refused if it says something about one of its parts. -/
theorem enter_of_part (logger : String) (level : Level) (message : String) (subject : Subject)
    {part : String} (hpart : part ∈ partNames backend.tasks) (hsaid : (said.lookup part).isSome) :
    ∃ report, journal.enter logger level message said subject backend = .error report ∧
      report.typeName = "KeyError" := by
  obtain ⟨entry, hentry, hname⟩ := List.lookup_isSome_iff.mp hsaid
  rw [enter]
  cases hfind : said.find? (fun entry => entry.1 ∈ partNames backend.tasks) with
  | some found => simp [Report.typeName]
  | none =>
      have hnot := List.find?_eq_none.mp hfind entry hentry
      rw [← eq_of_beq hname] at hnot
      exact absurd (decide_eq_true hpart) hnot

/-- An entry that is not refused is lost if it can no longer be asked for its message. -/
theorem enter_of_telling (logger : String) (level : Level) (message : String) (subject : Subject)
    (hparts : ∀ part ∈ partNames backend.tasks, said.lookup part = none)
    (hsaid : (said.lookup tellingName).isSome) :
    journal.enter logger level message said subject backend = .ok [] := by
  have hfind : said.find? (fun entry => entry.1 ∈ partNames backend.tasks) = none := by
    rw [List.find?_eq_none]
    intro entry hentry hpart
    have hnone := Record.lookup_eq_none_iff_notMem.mp (hparts _ (of_decide_eq_true hpart))
    exact hnone (List.mem_map_of_mem hentry)
  obtain ⟨entry, hentry, hname⟩ := List.lookup_isSome_iff.mp hsaid
  have hany : said.any (·.1 == tellingName) = true := by
    rw [List.any_eq_true]
    exact ⟨entry, hentry, beq_iff_eq.mpr (eq_of_beq hname).symm⟩
  rw [enter, hfind]
  simp only [hany]
  rfl

/-- An entry that passes, of a logger that was got with a first context and derived with further
ones. If it says something about one of its parts, it is refused and nothing is written. If not, but
it says something under the name by which it is asked for its message, it is lost. Any other entry is
handed to each writer that it is urgent enough for, as a line that tells what the last record that
has a name says under it.

Making an entry puts the context of its logger into the record that the entry is given, and deriving
a logger changes nothing that there is already. So whatever a program does, a logger goes on writing
the same lines as long as its own context is not handed to an entry. -/
theorem write_tells (hlogger : Logger.chain name first rest = .ok logger)
    (hdistinct : ∀ record ∈ extra :: first :: rest, record.Distinct)
    (hpasses : journal.passes level = true) (message : String) (subject : Subject)
    (backend : Backend) :
    ((∃ part ∈ partNames backend.tasks, (Record.latest? (extra :: first :: rest) part).isSome) →
      ∃ report, journal.write logger level message extra subject backend = .error report ∧
        report.typeName = "KeyError") ∧
    ((∀ part ∈ partNames backend.tasks, Record.latest? (extra :: first :: rest) part = none) →
      ((Record.latest? (extra :: first :: rest) tellingName).isSome →
        journal.write logger level message extra subject backend = .ok []) ∧
      (Record.latest? (extra :: first :: rest) tellingName = none →
        ∃ line, journal.write logger level message extra subject backend =
            backend.deliver line (journal.writers.countP (· ≤ level)) ∧
          line.Tells level (if name = "" then rootName else name) message subject
            (Record.latest? (extra :: first :: rest)))) ∧
    ∀ cells : Cells,
      (∀ (parent : Handle) (contexts : List Record), ∃ child cells',
        (contexts.foldlM Handle.derive parent).run cells = (child, cells') ∧
        child.logger cells' = contexts.foldl Logger.withContext (parent.logger cells)) ∧
      (∀ (handle : Handle) (extra : Nat), extra < cells.length →
        ∀ journal level message subject backend,
          (handle.log journal level message extra subject backend).run cells =
            (write journal (handle.logger cells) level message (cells[extra]?.getD []) subject
                backend,
              if journal.passes level then
                cells.modify extra (·.overlay (handle.logger cells).context)
              else cells)) ∧
      ∀ (moves : List Move) (handle : Handle), handle.cell < cells.length →
        (∀ move ∈ moves, move.lent? ≠ some handle.cell) → ∀ journal backend,
          handle.logger (Move.run journal backend moves cells) = handle.logger cells := by
  have hsaid := Logger.lookup_said hlogger hdistinct
  have hwrite : journal.write logger level message extra subject backend =
      journal.enter logger.name level message (Record.overlay extra logger.context) subject
        backend := if_pos hpasses
  rw [hwrite]
  refine ⟨?_, fun hparts => ⟨fun htelling => ?_, fun htelling => ?_⟩, fun cells => ⟨?_, ?_, ?_⟩⟩
  · rintro ⟨part, hpart, hvalue⟩
    rw [← hsaid] at hvalue
    exact enter_of_part _ _ _ _ hpart hvalue
  · refine enter_of_telling _ _ _ _ (fun part hpart => ?_) ?_
    · rw [hsaid, hparts part hpart]
    · rw [hsaid]
      exact htelling
  · have hunsaid : ∀ own ∈ reservedNames backend.tasks,
        (Record.overlay extra logger.context).lookup own = none := by
      intro own hown
      rw [hsaid]
      rcases List.mem_cons.mp hown with rfl | hpart
      · exact htelling
      · exact hparts own hpart
    have hlatest : Record.latest? (extra :: first :: rest) =
        fun key => (Record.overlay extra logger.context).lookup key := by
      funext key
      rw [hsaid]
    refine ⟨_, enter_of_clean _ _ _ _ (clean_of_lookup_eq_none hunsaid), ?_⟩
    rw [← Logger.name_chain hlogger, hlatest]
    apply Line.tells_make
    · exact (hdistinct extra List.mem_cons_self).overlay logger.context
    · exact fun part hpart => hunsaid part (List.mem_cons_of_mem _ hpart)
  · intro parent contexts
    obtain ⟨child, more, hrun, hchild⟩ := Handle.run_foldlM_derive contexts parent cells
    exact ⟨child, cells ++ more, hrun, hchild⟩
  · intro handle extra hextra journal level message subject backend
    exact handle.run_log_eq_write hextra journal level message subject backend
  · intro moves handle hcell hlent journal backend
    exact Move.logger_run hcell hlent journal backend

/-- A logger that knows a user and a line, and is then told another line and a depth. -/
def userContexts : List Record :=
  [[("line", .int 3)], [("depth", .int 2)]]

/-- The entry names another user, and also a name that a line has at its top. The logger's user and
its later line are told, and what has the name of the context is told in the context. -/
theorem write_userContexts : ∃ logger line,
    Logger.chain "app" [("user", .int 7), ("line", .int 1)] userContexts = .ok logger ∧
    (⟨20, [20]⟩ : Journal).write logger 30 "m" [("user", .int 1), ("context", .text "c")] .nothing =
      .ok [line] ∧
    line.facts.lookup "line" = some (.int 3) ∧ line.context.lookup "user" = some (.int 7) ∧
    line.context.lookup "context" = some (.text "c") ∧ line.keys.Nodup ∧ "context" ∈ line.keys := by
  have hlogger : Logger.chain "app" [("user", .int 7), ("line", .int 1)] userContexts = .ok _ := rfl
  have hdistinct : ∀ record ∈ [("user", .int 1), ("context", .text "c")] ::
      [("user", .int 7), ("line", .int 1)] :: userContexts, Record.Distinct record := by decide
  have hpasses : (⟨20, [20]⟩ : Journal).passes 30 = true := by decide
  obtain ⟨-, hwrite, -⟩ := write_tells hlogger hdistinct hpasses "m" .nothing .standard
  obtain ⟨line, hline, htells⟩ := (hwrite (by decide)).2 rfl
  refine ⟨_, line, hlogger, hline, htells.lookup_facts _, htells.lookup_context _,
    htells.lookup_context _, htells.nodup_keys, (htells.mem_keys _).mpr ?_⟩
  exact .inr (.inr (.inl ⟨rfl, "user", by decide, by decide, rfl⟩))

/-- An entry that says something under the name by which it is asked for its message is neither
refused nor written. -/
theorem write_lostMessage : ∃ logger, Logger.chain "app" [] [] = .ok logger ∧
    (⟨20, [20]⟩ : Journal).write logger 20 "m" [("getMessage", .text "v")] .nothing = .ok [] :=
  ⟨_, rfl, rfl⟩

end Journal

end Log

end SourceSpan
