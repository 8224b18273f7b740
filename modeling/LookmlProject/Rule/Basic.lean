import LookmlProject.Value.Access

/-!
# Rules

A rule judges a field or a document.  It is not about everything: where it is not about what it is
shown, its verdict says so.
-/

namespace LookmlProject

/-- What a rule says. -/
inductive Verdict where
  /-- The rule is not about this. -/
  | irrelevant
  /-- The rule is met or broken. -/
  | judged (passed : Bool)
deriving DecidableEq, Repr

/-- The built-in rules. -/
inductive RuleKind where
  | oneViewPerFile
  | filenameViewnameMatch
  | dataSource
  | description
  | allCaps
  | countName
  | drillDown
  | yesNoName
  | lexicon
deriving DecidableEq, Repr

/-- The name of a rule in rows and settings. -/
def RuleKind.name : RuleKind → String
  | .oneViewPerFile => "OneViewPerFileRule"
  | .filenameViewnameMatch => "FilenameViewnameMatchRule"
  | .dataSource => "DataSourceRule"
  | .description => "DescriptionRule"
  | .allCaps => "AllCapsRule"
  | .countName => "CountNameRule"
  | .drillDown => "DrillDownRule"
  | .yesNoName => "YesNoNameRule"
  | .lexicon => "LexiconRule"

/-- All built-in rules. -/
def RuleKind.all : List RuleKind := [
  .oneViewPerFile, .filenameViewnameMatch, .dataSource, .description, .allCaps, .countName,
  .drillDown, .yesNoName, .lexicon]

/-- The built-in rule of a name. -/
def RuleKind.ofName? (name : String) : Option RuleKind := all.find? fun kind => kind.name == name

/-- A rule with its settings. -/
structure Rule where
  kind : RuleKind
  settings : Value

namespace Rule

/-- A rule with the given settings, which are a record or empty. -/
def create (kind : RuleKind) (settings : Value) : Except Fault Rule :=
  match settings with
  | .record _ => .ok ⟨kind, settings⟩
  | _ => if settings.truthy then .error .violated else .ok ⟨kind, settings⟩

/-- The name of a rule. -/
def name (rule : Rule) : String := rule.kind.name

/-- The setting under a key. -/
def setting? (rule : Rule) (key : String) : Option Value :=
  match rule.settings with
  | .record fields => Value.Fields.get? fields key
  | _ => none

/-- Whether a rule that has settings has one under a key. -/
def hasSetting (rule : Rule) (key : Value) : Except Fault Bool :=
  if rule.settings.truthy then rule.settings.holds key else .ok false

/-- The setting under a key, null where there is none. -/
def settingAt (rule : Rule) (key : Value) : Except Fault Value := do
  if ← rule.hasSetting key then rule.settings.entry key else return .null

end Rule

end LookmlProject
