import InlineComponents.Styles.Asset

/-!
# Runs

A run is a computation that may fail, together with what it did on the way: what it asked of the
compiler and of the package locator, what it changed in the state of the build, and what it wrote
to the log. What was done before a failure stays on record.

The result of a run never depends on the record. `result_bind` lets a statement about results pass
over it.
-/

namespace InlineComponents

/-- Something that a run did: what it asked of the compiler, of the preprocessor and of the package
locator, the lines it wrote to the log, and what it changed in the state of the build (the start
of a new one, an asset that is kept, the name of a package that denies its manifest). -/
inductive RunEvent where
  | compiled (source : String) (options : CompileOptions)
  | preprocessed (source : String) (config : Json) (filename : FilePath)
  | located (package : String) (folder : FilePath)
  | logged (line : LogLine)
  | began
  | kept (asset : StyleAsset)
  | noted (package : String)
  deriving BEq, Repr

/-- A result with the record of what was done, in order. -/
structure Run (ε α : Type) where
  result : Except ε α
  events : List RunEvent

namespace Run

variable {ε α β : Type}

/-- A run that does nothing. -/
def ofExcept (result : Except ε α) : Run ε α := ⟨result, []⟩

/-- A run that goes on with the value of another, unless that failed. -/
def andThen (first : Run ε α) (next : α → Run ε β) : Run ε β :=
  match first.result with
  | .error error => ⟨.error error, first.events⟩
  | .ok value =>
    let second := next value
    ⟨second.result, first.events ++ second.events⟩

instance : Monad (Run ε) where
  pure value := ofExcept (.ok value)
  bind := andThen

/-- A run that puts something on record. -/
def record (event : RunEvent) : Run ε Unit := ⟨.ok (), [event]⟩

/-- A run that puts several things on record. -/
def recordAll (events : List RunEvent) : Run ε Unit := ⟨.ok (), events⟩

/-- A run that writes lines to the log. -/
def logAll (lines : List LogLine) : Run ε Unit := ⟨.ok (), lines.map .logged⟩

/-- The lines that a run wrote to the log. -/
def log (run : Run ε α) : List LogLine :=
  run.events.filterMap fun
    | .logged line => some line
    | _ => none

/-- A run that gives a value does nothing else. -/
@[simp] theorem result_pure (value : α) : (pure value : Run ε α).result = .ok value := rfl

/-- A run that gives a value leaves no record. -/
@[simp] theorem events_pure (value : α) : (pure value : Run ε α).events = [] := rfl

/-- The result of a run without a record. -/
@[simp] theorem result_ofExcept (result : Except ε α) : (ofExcept result).result = result := rfl

/-- Putting something on record always succeeds. -/
@[simp] theorem result_record (event : RunEvent) : (record event : Run ε Unit).result = .ok () :=
  rfl

/-- What is put on record is what stands there. -/
@[simp] theorem events_record (event : RunEvent) : (record event : Run ε Unit).events = [event] :=
  rfl

/-- Putting several things on record always succeeds. -/
@[simp] theorem result_recordAll (events : List RunEvent) :
    (recordAll events : Run ε Unit).result = .ok () := rfl

/-- Writing to the log always succeeds. -/
@[simp] theorem result_logAll (lines : List LogLine) :
    (logAll lines : Run ε Unit).result = .ok () := rfl

/-- Results compose without regard to the record. -/
@[simp] theorem result_bind (run : Run ε α) (next : α → Run ε β) :
    (run >>= next).result = run.result >>= fun value => (next value).result := by
  obtain ⟨result, events⟩ := run
  cases result <;> rfl

/-- After a success the records follow one another. -/
theorem events_bind_of_ok {run : Run ε α} {value : α} (next : α → Run ε β)
    (h : run.result = .ok value) : (run >>= next).events = run.events ++ (next value).events := by
  obtain ⟨result, events⟩ := run
  subst h
  rfl

/-- After a failure nothing more is done. -/
theorem events_bind_of_error {run : Run ε α} {error : ε} (next : α → Run ε β)
    (h : run.result = .error error) : (run >>= next).events = run.events := by
  obtain ⟨result, events⟩ := run
  subst h
  rfl

end Run

end InlineComponents
