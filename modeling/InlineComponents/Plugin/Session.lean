import InlineComponents.Plugin.Transformation

/-!
# A plugin at work

A host asks one thing after the other, and the state of the build is handed on from each request to
the next. A request changes the state by what it does on the way, and what it did before it failed
is not taken back.
-/

namespace InlineComponents

/-- What a host asks of a plugin. -/
inductive Plugin.Request where
  | buildStart
  | resolve (specifier : String) (importer : Option FilePath)
  | load (id : String)
  | transform (code id : String)
  | finalize
  deriving DecidableEq, Repr

/-- What a plugin answers. Nothing is answered for an import it does not know, styles it does not
keep, a module it does not take, and a build without anything to say. -/
inductive Plugin.Reply where
  | started
  | resolved (id : Option String)
  | loaded (css : Option Css)
  | transformed (output : Option TransformOutput)
  | finalized (summary : Option String)
  deriving BEq, Repr

namespace BuildState

/-- The state after something that a run did. -/
def after (state : BuildState) : RunEvent → BuildState
  | .began => {}
  | .kept asset => { state with assets := state.assets.insertAsset asset }
  | .noted package => { state with denials := state.denials.record package }
  | .compiled _ _ | .preprocessed _ _ _ | .located _ _ | .logged _ => state

/-- The state after all that a run did, whether it failed in the end or not. -/
def afterRun {α : Type} (state : BuildState) (run : Run BuildError α) : BuildState :=
  run.events.foldl after state

end BuildState

namespace Plugin

/-- Resolve an import: an asset leads to itself, anything else to the entry of a package. -/
def resolve (plugin : Plugin) (state : BuildState) (specifier : String)
    (importer : Option FilePath) : Run BuildError Reply :=
  if state.assets.contains specifier then return .resolved (some specifier)
  else match importer with
    | none => return .resolved none
    | some importer => do
      let answer ← Resolution.resolve plugin.locator plugin.manifestField specifier importer
      return .resolved (answer.path?.map FilePath.toString)

/-- Do what a request asks for. -/
def perform (plugin : Plugin) (state : BuildState) : Request → Run BuildError Reply
  | .buildStart => do
    .record .began
    return .started
  | .resolve specifier importer => plugin.resolve state specifier importer
  | .load id => return .loaded (state.assets.find? id)
  | .transform code id => do
    let transformation ← plugin.transform code id
    return .transformed (transformation.map (·.output))
  | .finalize => do
    .logAll (state.denials.logLines plugin.manifestField)
    return .finalized (state.denials.summary? plugin.manifestField)

/-- The state of the build after a request. -/
def next (plugin : Plugin) (state : BuildState) (request : Request) : BuildState :=
  state.afterRun (plugin.perform state request)

/-- Answer a request, with the state of the build after it. -/
def answer (plugin : Plugin) (state : BuildState) (request : Request) :
    Run BuildError (Reply × BuildState) := do
  let reply ← plugin.perform state request
  return (reply, plugin.next state request)

/-- The answer to a request without the state. -/
def reply (plugin : Plugin) (state : BuildState) (request : Request) : Except BuildError Reply :=
  (plugin.perform state request).result

/-- The state of the build after requests that came one after the other. -/
def run (plugin : Plugin) (state : BuildState) (requests : List Request) : BuildState :=
  requests.foldl plugin.next state

/-- Loading shows what is kept. -/
@[simp] theorem reply_load (plugin : Plugin) (state : BuildState) (id : String) :
    plugin.reply state (.load id) = .ok (.loaded (state.assets.find? id)) := rfl

/-- A build that begins knows nothing of the one before. -/
@[simp] theorem next_buildStart (plugin : Plugin) (state : BuildState) :
    plugin.next state .buildStart = {} := rfl

/-- The answer to a transformation does not depend on the state. -/
theorem reply_transform (plugin : Plugin) (state : BuildState) (code id : String) :
    plugin.reply state (.transform code id) =
      (plugin.transform code id).result.map fun transformation =>
        .transformed (transformation.map (·.output)) := by
  simp only [reply, perform, Run.result_bind]
  cases (plugin.transform code id).result <;> rfl

end Plugin

end InlineComponents
