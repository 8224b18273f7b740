import LookmlProject.Proofs.ValueNames
import LookmlProject.Rule.Shared

/-! # The shared registry is one map

    Holders come at any time, and each is asked to register, to unregister, whether
    something is registered, and to make rules.  What a key stands for is read off the
    requests that were served so far (`standsFor`): the last change of the key says it,
    and where there is none, the built-in rule of that name.

    * `answer_serve`: one request is answered from what its key stands for;
    * `item?_serve`: it changes at most that, and only as its answer says;
    * `run_tracks`: so at every moment of a run the registry is the map that the
      requests served so far describe. -/

namespace LookmlProject

namespace Keyed

variable {Key α : Type} [BEq Key]

/-- A key that equals itself alone. -/
def Exact (key : Key) : Prop := ∀ other : Key, (other == key) = true ↔ other = key

theorem get?_cons (entry : Key × α) (rest : Keyed Key α) (key : Key) :
    get? (entry :: rest) key = if entry.1 == key then some entry.2 else get? rest key := by
  rw [get?, List.find?_cons]
  cases entry.1 == key <;> rfl

/-- After a key was set, it has the new value, and the others have theirs. -/
theorem get?_set {key other : Key} (hkey : Exact key) (hother : Exact other)
    (keyed : Keyed Key α) (value : α) :
    (set keyed key value).get? other = if key == other then some value else keyed.get? other := by
  induction keyed with
  | nil => rw [set, get?_cons]
  | cons entry rest ih =>
      rw [set]
      split
      · rename_i hitem
        rw [get?_cons, get?_cons, (hkey entry.1).mp hitem]
        split <;> rfl
      · rename_i hitem
        rw [get?_cons, get?_cons, ih]
        by_cases hfirst : (entry.1 == other) = true
        · have hne : ¬ (key == other) = true := by
            rw [hother key]
            rintro rfl
            exact hitem hfirst
          rw [if_pos hfirst, if_pos hfirst, if_neg hne]
        · rw [if_neg hfirst, if_neg hfirst]

/-- After a key was taken out, it has no value, and the others have theirs. -/
theorem get?_erase {key other : Key} (hkey : Exact key) (hother : Exact other)
    (keyed : Keyed Key α) :
    (erase keyed key).get? other = if key == other then none else keyed.get? other := by
  induction keyed with
  | nil => exact (ite_self none).symm
  | cons entry rest ih =>
      change get? (List.filter _ rest) other = _ at ih
      rw [erase, List.filter_cons, get?_cons]
      split
      · rename_i hkeep
        rw [get?_cons, ih]
        by_cases hfirst : (entry.1 == other) = true
        · have hne : ¬ (key == other) = true := by
            rw [hother key]
            rintro rfl
            simp [hfirst] at hkeep
          rw [if_pos hfirst, if_pos hfirst, if_neg hne]
        · rw [if_neg hfirst, if_neg hfirst]
      · rename_i hdrop
        rw [ih, (hkey entry.1).mp (by simpa using hdrop)]
        split <;> rfl

/-- A key is there exactly if it has a value. -/
theorem contains_eq_isSome (keyed : Keyed Key α) (key : Key) :
    keyed.contains key = (keyed.get? key).isSome := by
  rw [contains, get?, Option.isSome_map, List.isSome_find?]

end Keyed

namespace Registry

open Keyed

theorem exact_text (s : String) : Exact (Value.text s) := fun other => Value.beq_text_iff other s

/-- What a registry has under a text. -/
def item? (registry : Registry) (key : String) : Option Registered :=
  registry.entries.get? (.text key)

/-- The built-in rule of a name. -/
def builtinItem? (key : String) : Option Registered := (RuleKind.ofName? key).map .rule

/-- At the start a text stands for the built-in rule of that name. -/
theorem item?_builtin (key : String) : builtin.item? key = builtinItem? key := by
  have h : ∀ kinds : List RuleKind,
      Keyed.get? (kinds.map fun kind => (Value.text kind.name, Registered.rule kind)) (.text key) =
        (kinds.find? fun kind => kind.name == key).map Registered.rule := by
    intro kinds
    rw [Keyed.get?, List.find?_map, Option.map_map]
    rfl
  exact h RuleKind.all

/-! ## One request -/

/-- A rule takes a record as its settings, and whatever is empty. -/
def Fitting (settings : Value) : Prop :=
  (∃ fields, settings = .record fields) ∨ settings.truthy = false

instance (settings : Value) : Decidable (Fitting settings) :=
  match settings with
  | .record fields => .isTrue (Or.inl ⟨fields, rfl⟩)
  | .null | .bool _ | .int _ | .float _ | .text _ | .list _ =>
    decidable_of_iff (Value.truthy _ = false)
      ⟨Or.inr, fun h => h.resolve_left fun ⟨_, hfields⟩ => by cases hfields⟩

/-- A rule is made exactly if its settings fit. -/
theorem create_eq (kind : RuleKind) (settings : Value) :
    Rule.create kind settings =
      if Fitting settings then .ok ⟨kind, settings⟩ else .error .violated := by
  cases settings with
  | record fields => exact (if_pos (Or.inl ⟨fields, rfl⟩)).symm
  | _ =>
      simp only [Rule.create, Fitting, reduceCtorEq, exists_false, false_or]
      cases Value.truthy _ <;> rfl

/-- What a request about a key is answered, from what the key stands for. -/
def answerTo (item? : Option Registered) (key : String) : Request → Except Fault Answer
  | .register _ => .ok .done
  | .unregister => if item?.isSome then .ok .done else .error (.unregistered key)
  | .contains => .ok (.holds item?.isSome)
  | .instantiate settings =>
    match item? with
    | none => .error (.missingKey key)
    | some (.rule kind) =>
      if Fitting settings then .ok (.made ⟨kind, settings⟩) else .error .violated
    | some .noRule => .error .wrongShape

/-- A request that was served. -/
structure Served where
  key : String
  request : Request
  answer : Except Fault Answer

/-- What a served request changes a key to: only a success changes, and only its own key. -/
def Served.change? (served : Served) (key : String) : Option (Option Registered) :=
  if served.key = key then
    match served.request, served.answer with
    | .register item, .ok _ => some (some item)
    | .unregister, .ok _ => some none
    | _, _ => none
  else none

theorem contains_text (registry : Registry) (key : String) :
    registry.contains (.text key) = .ok (registry.item? key).isSome :=
  congrArg Except.ok (contains_eq_isSome registry.entries _)

/-- Unregistering succeeds exactly if the text stands for something. -/
theorem unregister_text (registry : Registry) (key : String) :
    registry.unregister (.text key) =
      if (registry.item? key).isSome then .ok ⟨registry.entries.erase (.text key)⟩
      else .error (.unregistered key) := by
  rw [unregister, contains_text]
  rfl

/-- Making a rule is answered from what the text stands for. -/
theorem instantiate_text (registry : Registry) (key : String) (settings : Value) :
    Answer.made <$> registry.instantiate (.text key) settings =
      answerTo (registry.item? key) key (.instantiate settings) := by
  have hkey : (Value.text key).asKey = .ok (.text key) := rfl
  rw [instantiate, item?, hkey]
  simp only [bind, Except.bind]
  cases registry.entries.get? (.text key) with
  | none => rfl
  | some item =>
      cases item with
      | rule kind =>
          show Answer.made <$> Rule.create kind settings = if _ then _ else _
          rw [create_eq]
          split <;> rfl
      | noRule => rfl

/-- A request is answered from what its key stands for. -/
theorem answer_serve (registry : Registry) (key : String) (request : Request) :
    (registry.serve (.text key) request).2 = answerTo (registry.item? key) key request := by
  cases request with
  | register item => rfl
  | unregister =>
      rw [serve, unregister_text, answerTo]
      split <;> rfl
  | contains =>
      rw [serve, contains_text]
      rfl
  | instantiate settings => exact registry.instantiate_text key settings

/-- A request leaves the registry as it was unless it is a register or an unregister that
succeeds. -/
theorem serve_unchanged (registry : Registry) (key : String) (request : Request)
    (h : (Served.mk key request (answerTo (registry.item? key) key request)).change? key = none) :
    (registry.serve (.text key) request).1 = registry := by
  rw [Served.change?, if_pos rfl] at h
  cases request with
  | register item => cases h
  | unregister =>
      rw [serve, unregister_text]
      split
      · rename_i hsome
        simp only [answerTo, if_pos hsome] at h
        cases h
      · rfl
  | contains => rfl
  | instantiate settings => rfl

/-- A request changes what keys stand for as its answer says. -/
theorem item?_serve (registry : Registry) (key : String) (request : Request) (other : String) :
    (registry.serve (.text key) request).1.item? other =
      ((Served.mk key request (answerTo (registry.item? key) key request)).change? other).getD
        (registry.item? other) := by
  rw [Served.change?]
  cases request with
  | register item =>
      show Keyed.get? (registry.entries.set (.text key) item) (.text other) = _
      rw [get?_set (exact_text key) (exact_text other)]
      show (if (key == other) = true then _ else _) = _
      simp only [beq_iff_eq, answerTo]
      split <;> rfl
  | unregister =>
      rw [serve, unregister_text, answerTo]
      split
      · show Keyed.get? (registry.entries.erase (.text key)) (.text other) = _
        rw [get?_erase (exact_text key) (exact_text other)]
        show (if (key == other) = true then _ else _) = _
        simp only [beq_iff_eq]
        split <;> rfl
      · rw [ite_self]
        rfl
  | contains => rw [ite_self]; rfl
  | instantiate settings => rw [ite_self]; rfl

/-! ## A run -/

/-- What a key stands for after requests were served: what its last change says, and where there is
none, the built-in rule of that name. -/
def standsFor (past : List Served) (key : String) : Option Registered :=
  (past.reverse.findSome? (·.change? key)).getD (builtinItem? key)

/-- One more request says what its key stands for, if it changes it, and nothing of other keys. -/
theorem standsFor_append (past : List Served) (served : Served) (key : String) :
    standsFor (past ++ [served]) key = (served.change? key).getD (standsFor past key) := by
  rw [standsFor, List.reverse_append, List.reverse_singleton, List.singleton_append,
    List.findSome?_cons]
  cases served.change? key <;> rfl

/-- A holder comes, or one is asked about a key. -/
inductive Action where
  | hold
  | ask (holder : Nat) (key : String) (request : Request)

namespace Shared

/-- The actions one after the other, with the requests that were served. -/
def run : Shared × List Served → List Action → Option (Shared × List Served)
  | state, [] => some state
  | (shared, past), .hold :: rest => run (shared.hold, past) rest
  | (shared, past), .ask holder key request :: rest => do
    let (after, answer) ← shared.ask holder (.text key) request
    run (after, past ++ [⟨key, request, answer⟩]) rest

/-- What a key stands for; before the first holder, what it will stand for. -/
def item? (shared : Shared) (key : String) : Option Registered :=
  (shared.registry?.getD .builtin).item? key

/-- The registry is there as soon as it has holders, and it maps each key as the served requests
say. -/
structure Tracks (shared : Shared) (past : List Served) : Prop where
  present : 0 < shared.holders → ∃ registry, shared.registry? = some registry
  item?_eq : ∀ key, shared.item? key = standsFor past key

/-- Before the first request every key stands for its built-in rule. -/
theorem fresh_tracks : Tracks fresh [] := ⟨nofun, item?_builtin⟩

/-- One more holder changes nothing. -/
theorem Tracks.hold {shared : Shared} {past : List Served} (h : shared.Tracks past) :
    shared.hold.Tracks past :=
  ⟨fun _ => ⟨_, rfl⟩, h.item?_eq⟩

/-- A holder that is there passes the request on to the one registry. -/
theorem ask_eq {shared : Shared} {registry : Registry} (h : shared.registry? = some registry)
    {holder : Nat} (hholder : holder < shared.holders) (key : Value) (request : Request) :
    shared.ask holder key request =
      some ({ shared with registry? := some (registry.serve key request).1 },
        (registry.serve key request).2) := by
  simp [ask, h, hholder, guard]

/-- One request: who is asked makes no difference. -/
theorem Tracks.ask {shared : Shared} {past : List Served} (h : shared.Tracks past) {holder : Nat}
    (hholder : holder < shared.holders) (key : String) (request : Request) :
    let served := Served.mk key request (answerTo (standsFor past key) key request)
    ∃ after, shared.ask holder (.text key) request = some (after, served.answer) ∧
      after.holders = shared.holders ∧ after.Tracks (past ++ [served]) ∧
      (served.change? key = none → after = shared) := by
  obtain ⟨registry, hregistry⟩ := h.present (Nat.zero_lt_of_lt hholder)
  -- The registry is the one that all holders share.
  have hitem : ∀ other, registry.item? other = standsFor past other := by
    intro other
    rw [← h.item?_eq, item?, hregistry]
    rfl
  intro served
  refine ⟨{ shared with registry? := some (registry.serve (.text key) request).1 }, ?_, rfl,
    ⟨fun _ => ⟨_, rfl⟩, fun other => ?_⟩, fun hnone => ?_⟩
  · rw [ask_eq hregistry hholder, answer_serve, hitem]
  · show (registry.serve (.text key) request).1.item? other = _
    rw [item?_serve, hitem, hitem, standsFor_append]
  · rw [serve_unchanged registry key request (hitem key ▸ hnone), ← hregistry]

/-- Only holders that have come are asked. -/
def Timely : Nat → List Action → Prop
  | _, [] => True
  | holders, .hold :: rest => Timely (holders + 1) rest
  | holders, .ask holder _ _ :: rest => holder < holders ∧ Timely holders rest

/-- The number of holders that come. -/
def arrivals (actions : List Action) : Nat :=
  actions.countP fun
    | .hold => true
    | .ask _ _ _ => false

/-- What is asked, in its order, whoever is asked. -/
def asked (actions : List Action) : List (String × Request) :=
  actions.filterMap fun
    | .hold => none
    | .ask _ key request => some (key, request)

/-- At the end of a run every request is answered, and the registry is the map that the answers
describe. -/
theorem run_tracks (actions : List Action) : ∀ {shared : Shared} {past : List Served},
    Timely shared.holders actions → shared.Tracks past →
    ∃ after later, run (shared, past) actions = some (after, past ++ later) ∧
      after.Tracks (past ++ later) ∧ after.holders = shared.holders + arrivals actions ∧
      later.map (fun served => (served.key, served.request)) = asked actions := by
  induction actions with
  | nil =>
      intro shared past _ htracks
      rw [← List.append_nil past] at htracks
      exact ⟨shared, [], by rw [run, List.append_nil], htracks, rfl, rfl⟩
  | cons action rest ih =>
      intro shared past htimely htracks
      cases action with
      | hold =>
          obtain ⟨after, later, hrun, hafter, hholders, hasked⟩ := ih htimely htracks.hold
          refine ⟨after, later, hrun, hafter, ?_, hasked⟩
          rw [hholders, arrivals, arrivals, List.countP_cons_of_pos rfl]
          exact Nat.add_right_comm _ _ _
      | ask holder key request =>
          -- The answer is recorded, and the registry is the map of the longer past.
          obtain ⟨next, hask, hnext, htracks, _⟩ := htracks.ask htimely.1 key request
          obtain ⟨after, later, hrun, hafter, hholders, hasked⟩ :=
            ih (hnext ▸ htimely.2) htracks
          rw [List.append_assoc] at hrun hafter
          refine ⟨after, _ :: later, ?_, hafter, ?_, congrArg _ hasked⟩
          · rw [run, hask]
            exact hrun
          · rw [hholders, hnext, arrivals, arrivals, List.countP_cons_of_neg Bool.false_ne_true]

/-- **ONE MAP FOR ALL HOLDERS.**  Holders come and are asked in any order, each only after it has
come.  Every request is answered, and then whoever of them is asked next, whatever the key:

* the answer follows from what the key stands for (`answerTo`), which the requests served so far say
  (`standsFor`): its last successful register or unregister, or else the built-in rule of that name;
* a request that fails or only reads leaves everything as it was;
* afterwards every key stands for what the requests served by then say, so that another key stands
  for what it stood for. -/
theorem one_map_for_all_holders {actions : List Action} (htimely : Timely 0 actions) :
    ∃ shared past, run (fresh, []) actions = some (shared, past) ∧
      past.map (fun served => (served.key, served.request)) = asked actions ∧
      shared.holders = arrivals actions ∧
      ∀ holder < shared.holders, ∀ key request,
        let served := Served.mk key request (answerTo (standsFor past key) key request)
        ∃ after, shared.ask holder (.text key) request = some (after, served.answer) ∧
          (served.change? key = none → after = shared) ∧
          (∀ other, after.item? other = standsFor (past ++ [served]) other) ∧
          ∀ other ≠ key, after.item? other = shared.item? other := by
  obtain ⟨shared, past, hrun, htracks, hholders, hasked⟩ :=
    @run_tracks actions fresh [] htimely fresh_tracks
  refine ⟨shared, past, hrun, hasked, hholders.trans (Nat.zero_add _), ?_⟩
  intro holder hholder key request served
  obtain ⟨after, hask, _, hafter, hsame⟩ := htracks.ask hholder key request
  refine ⟨after, hask, hsame, hafter.item?_eq, fun other hother => ?_⟩
  -- The last request has another key, so it says nothing of this one.
  rw [hafter.item?_eq, htracks.item?_eq, List.nil_append, standsFor_append, Served.change?,
    if_neg hother.symm]
  rfl

/-- A built-in rule goes, a second holder comes and registers another rule under a new key and then
in its place, and the built-in rule cannot go twice. -/
def twoHolders : List Action :=
  [.hold, .ask 0 "AllCapsRule" .unregister, .hold, .ask 1 "mine" (.register (.rule .allCaps)),
    .ask 0 "AllCapsRule" .unregister, .ask 0 "mine" (.register (.rule .lexicon))]

/-- What one holder registers the other makes, and what one unregisters is gone for the other. -/
theorem twoHolders_share :
    Timely 0 twoHolders ∧ ∃ shared past after,
      run (fresh, []) twoHolders = some (shared, past) ∧
      shared.ask 1 (.text "mine") (.instantiate .null) =
        some (shared, .ok (.made ⟨.lexicon, .null⟩)) ∧
      shared.ask 0 (.text "AllCapsRule") .contains = some (shared, .ok (.holds false)) ∧
      shared.ask 1 (.text "DescriptionRule") .unregister = some (after, .ok .done) ∧
      after.item? "mine" = some (.rule .lexicon) := by
  have htimely : Timely 0 twoHolders := ⟨by decide, by decide, by decide, by decide, trivial⟩
  obtain ⟨shared, past, hrun, _, hholders, hnext⟩ := one_map_for_all_holders htimely
  have hpast : past = [⟨"AllCapsRule", .unregister, .ok .done⟩,
      ⟨"mine", .register (.rule .allCaps), .ok .done⟩,
      ⟨"AllCapsRule", .unregister, .error (.unregistered "AllCapsRule")⟩,
      ⟨"mine", .register (.rule .lexicon), .ok .done⟩] := by
    have hrun' : (run (fresh, []) twoHolders).map Prod.snd = some past := by rw [hrun]; rfl
    exact (Option.some.inj hrun').symm
  have htwo : shared.holders = 2 := hholders
  rw [htwo, hpast] at hnext
  obtain ⟨_, hmade, hsame, _⟩ := hnext 1 (by decide) "mine" (.instantiate .null)
  obtain ⟨_, hholds, hsame', _⟩ := hnext 0 (by decide) "AllCapsRule" .contains
  obtain ⟨after, hdone, _, hitem, _⟩ := hnext 1 (by decide) "DescriptionRule" .unregister
  rw [hsame rfl] at hmade
  rw [hsame' rfl] at hholds
  exact ⟨htimely, shared, past, after, hrun, hmade, hholds, hdone, hitem "mine"⟩

end Shared

end Registry

end LookmlProject
