import Hexroute.Lib.Refusal
import Hexroute.Lib.StableSort

/-!
# What a configuration would lose

The settings a candidate would drop are named as key paths into the installed
configuration.  Only the presence of keys is compared.  A value other than an
object is not descended into, so its content is left out.
-/

namespace Hexroute.ConfigReduction

open Hexroute.Lib

/-- A decoded document.  An object has the keys it is walked by and the value
under each of them. -/
inductive Json where
  | null
  | scalar
  | array
  | object (keys : List String) (value : String → Json)

/-- A lost setting: its keys, and the text they are reported as. -/
structure Named where
  path : List String
  text : String
  deriving DecidableEq, Repr

def Named.below (parent : Named) (key : String) : Named where
  path := parent.path ++ [key]
  text := parent.text ++ "." ++ key

def Named.top : Named := ⟨[], ""⟩

inductive ReductionError where
  | invalidConfiguration
  deriving DecidableEq, Repr

namespace Json

def isObject : Json → Bool
  | object _ _ => true
  | _ => false

/-- Everything an absent object used to hold. -/
def within : Json → Named → List Named
  | object keys value, parent =>
      keys.flatMap fun key =>
        parent.below key :: (value key).within (parent.below key)
  | _, _ => []

/-- What `now` does not have of `was`, both objects. -/
def missing : Json → Json → Named → List Named
  | object keys value, object nowKeys nowValue, parent =>
      keys.flatMap fun key =>
        let named :=
          if parent.text = "" then ⟨parent.path ++ [key], key⟩
          else parent.below key
        if key ∈ nowKeys then
          if (value key).isObject then
            if (nowValue key).isObject then
              (value key).missing (nowValue key) named
            else (value key).within named
          else []
        else named :: (value key).within named
  | _, _, _ => []

end Json

section Reductions

variable {Raw : Type} (unmarshal : Raw → Option Json)

/-- What the decoder makes of the bytes has to be an object. -/
def object (raw : Raw) : Except ReductionError Json :=
  match unmarshal raw with
  | some (.object keys value) => .ok (.object keys value)
  | _ => .error .invalidConfiguration

def reductions (installed candidate : Raw) :
    Except ReductionError (List Named) := do
  let was ← object unmarshal installed
  let now ← object unmarshal candidate
  pure (sortBy Named.text (was.missing now Named.top))

end Reductions

/-! ## The paths of a document -/

namespace Json

def valueAt : Json → List String → Option Json
  | json, [] => some json
  | object keys value, key :: rest =>
      if key ∈ keys then (value key).valueAt rest else none
  | _, _ :: _ => none

/-- The document has a value other than null at the path. -/
def Carries (json : Json) (path : List String) : Prop :=
  ∃ value, json.valueAt path = some value ∧ value ≠ null

@[simp] theorem valueAt_nil (json : Json) :
    json.valueAt [] = some json := by
  cases json <;> rfl

/-- A value that is not an object has only the empty path. -/
theorem valueAt_of_plain
    {json : Json} (plain : json.isObject = false) {path : List String} :
    json.valueAt path = none ↔ path ≠ [] := by
  cases path with
  | nil => simp
  | cons key rest =>
      cases json with
      | object keys value => cases plain
      | null => simp [valueAt]
      | scalar => simp [valueAt]
      | array => simp [valueAt]

theorem valueAt_object
    {keys : List String} {value : String → Json} {key : String}
    {rest : List String} :
    (object keys value).valueAt (key :: rest) ≠ none ↔
      key ∈ keys ∧ (value key).valueAt rest ≠ none := by
  rw [valueAt]
  split
  · rename_i member
    simp [member]
  · rename_i absent
    simp [absent]

theorem not_below_of_plain
    {json : Json} (plain : json.isObject = false) (path : List String) :
    ¬ (path ≠ [] ∧ json.valueAt path ≠ none) := by
  rw [Ne, Ne, valueAt_of_plain plain, and_not_self_iff]
  exact id

/-- Where the first document has a plain value there is nothing to lose. -/
theorem not_lost_of_plain
    {was now : Json} (plain : was.isObject = false) (path : List String) :
    ¬ (was.valueAt path ≠ none ∧ now.valueAt path = none) := by
  rintro ⟨has, lost⟩
  rw [Ne, valueAt_of_plain plain, not_not] at has
  simp [has] at lost

/-- A list of settings names the paths below `parent` that `holds`. -/
def NamesBelow
    (listed : List Named) (parent : List String)
    (holds : List String → Prop) : Prop :=
  ∀ path, (∃ named ∈ listed, named.path = path) ↔
    ∃ rest, path = parent ++ rest ∧ holds rest

/-- The named keys one by one. -/
theorem namesBelow_flatMap
    {keys : List String} {listed : String → List Named}
    {parent : List String} {holds : List String → Prop}
    (each :
      ∀ key ∈ keys,
        NamesBelow (listed key) (parent ++ [key]) fun rest =>
          holds (key :: rest))
    (known : ∀ rest, holds rest → ∃ key ∈ keys, ∃ more, rest = key :: more) :
    NamesBelow (keys.flatMap listed) parent holds := by
  intro path
  simp only [List.mem_flatMap]
  constructor
  · rintro ⟨named, ⟨key, member, inside⟩, is⟩
    obtain ⟨rest, rfl, has⟩ := (each key member path).mp ⟨named, inside, is⟩
    exact ⟨key :: rest, by simp, has⟩
  · rintro ⟨rest, rfl, has⟩
    obtain ⟨key, member, more, rfl⟩ := known rest has
    obtain ⟨named, inside, is⟩ :=
      (each key member (parent ++ key :: more)).mpr ⟨more, by simp, has⟩
    exact ⟨named, ⟨key, member, inside⟩, is⟩

/-- The setting itself and what is below it. -/
theorem namesBelow_cons
    {named : Named} {listed : List Named} {holds : List String → Prop}
    (itself : holds [])
    (below :
      NamesBelow listed named.path fun rest => rest ≠ [] ∧ holds rest) :
    NamesBelow (named :: listed) named.path holds := by
  intro path
  simp only [List.mem_cons, exists_eq_or_imp, below path]
  constructor
  · rintro (rfl | ⟨rest, is, _, has⟩)
    · exact ⟨[], by simp, itself⟩
    · exact ⟨rest, is, has⟩
  · rintro ⟨rest, rfl, has⟩
    cases rest with
    | nil => exact Or.inl (by simp)
    | cons key more => exact Or.inr ⟨key :: more, rfl, nofun, has⟩

theorem namesBelow_nil
    {parent : List String} {holds : List String → Prop}
    (never : ∀ rest, ¬ holds rest) :
    NamesBelow [] parent holds := by
  intro path
  simp [never]

/-- What `within` names is every path below the value. -/
theorem within_names (json : Json) (parent : Named) :
    NamesBelow (json.within parent) parent.path fun rest =>
      rest ≠ [] ∧ json.valueAt rest ≠ none := by
  induction json generalizing parent with
  | null => exact namesBelow_nil (not_below_of_plain rfl)
  | scalar => exact namesBelow_nil (not_below_of_plain rfl)
  | array => exact namesBelow_nil (not_below_of_plain rfl)
  | object keys value inductionHypothesis =>
      refine namesBelow_flatMap ?_ ?_
      · intro key member
        simp only [valueAt_object, member, true_and, ne_eq, reduceCtorEq,
          not_false_eq_true]
        exact
          namesBelow_cons (by simp)
            (inductionHypothesis key (parent.below key))
      · rintro rest ⟨nonempty, has⟩
        cases rest with
        | nil => exact absurd rfl nonempty
        | cons key more =>
            exact ⟨key, (valueAt_object.mp has).1, more, rfl⟩

/-- What `missing` names is every path of the first document that the second
does not have. -/
theorem missing_names
    {was now : Json} (parent : Named) (settings : now.isObject = true) :
    NamesBelow (was.missing now parent) parent.path fun rest =>
      was.valueAt rest ≠ none ∧ now.valueAt rest = none := by
  induction was generalizing now parent with
  | null => exact namesBelow_nil (not_lost_of_plain rfl)
  | scalar => exact namesBelow_nil (not_lost_of_plain rfl)
  | array => exact namesBelow_nil (not_lost_of_plain rfl)
  | object keys value inductionHypothesis =>
      obtain ⟨nowKeys, nowValue, rfl⟩ : ∃ nowKeys nowValue,
          now = object nowKeys nowValue := by
        cases now with
        | object nowKeys nowValue => exact ⟨_, _, rfl⟩
        | null => cases settings
        | scalar => cases settings
        | array => cases settings
      refine namesBelow_flatMap ?_ ?_
      · intro key member
        -- the text is the only thing that depends on the parent's text
        generalize isNamed :
          (if parent.text = "" then ⟨parent.path ++ [key], key⟩
            else parent.below key : Named) = named
        have path : named.path = parent.path ++ [key] := by
          rw [← isNamed]
          split <;> rfl
        simp only [valueAt_object, member, true_and, ← path]
        by_cases kept : key ∈ nowKeys
        · simp only [valueAt, kept, if_true]
          cases held : (value key).isObject with
          | false => exact namesBelow_nil (not_lost_of_plain held)
          | true =>
              cases still : (nowValue key).isObject with
              | false =>
                  simp only [valueAt_of_plain still, and_comm]
                  exact within_names _ _
              | true => exact inductionHypothesis key named still
        · simp only [valueAt, kept, if_false, and_true]
          refine namesBelow_cons (by simp) (within_names _ _)
      · rintro rest ⟨has, lost⟩
        cases rest with
        | nil => simp at lost
        | cons key more =>
            exact ⟨key, (valueAt_object.mp has).1, more, rfl⟩

end Json

/-! ## What is announced -/

/-- A list of lost settings names every path that the first document carries
and the second does not, and none that the second carries. -/
structure Announces (was now : Json) (lost : List Named) : Prop where
  every :
    ∀ path, was.Carries path → ¬ now.Carries path →
      ∃ named ∈ lost, named.path = path
  only : ∀ named ∈ lost, ¬ now.Carries named.path

section Announcing

variable {Raw : Type} (unmarshal : Raw → Option Json)

/-- Every loss from one document to another is announced, and where nothing
is lost on the way over a third document nothing is lost at all. -/
def AnnouncesLosses (installed candidate : Raw) : Prop :=
  (∀ was now,
    object unmarshal installed = .ok was →
    object unmarshal candidate = .ok now →
      ∃ lost, reductions unmarshal installed candidate = .ok lost ∧
        Announces was now lost) ∧
  ∀ middle,
    reductions unmarshal installed middle = .ok [] →
    reductions unmarshal middle candidate = .ok [] →
      reductions unmarshal installed candidate = .ok []

/-- The candidate has a null nowhere the installed document carries a
value. -/
def NothingNulled (installed candidate : Raw) : Prop :=
  ∀ was now,
    object unmarshal installed = .ok was →
    object unmarshal candidate = .ok now →
      ∀ path, was.Carries path → now.valueAt path ≠ some .null

variable {unmarshal}

theorem isObject_of_object
    {raw : Raw} {json : Json} (decoded : object unmarshal raw = .ok json) :
    json.isObject = true := by
  unfold object at decoded
  split at decoded
  · cases decoded
    rfl
  · cases decoded

theorem reductions_eq_ok_iff
    {installed candidate : Raw} {lost : List Named} :
    reductions unmarshal installed candidate = .ok lost ↔
      ∃ was, object unmarshal installed = .ok was ∧
        ∃ now, object unmarshal candidate = .ok now ∧
          sortBy Named.text (was.missing now Named.top) = lost := by
  unfold reductions
  simp only [bind_eq_ok_iff, pure_eq_ok_iff]

/-- The paths of the sorted list. -/
theorem named_iff
    {was now : Json} (settings : now.isObject = true) (path : List String) :
    (∃ named ∈ sortBy Named.text (was.missing now Named.top),
        named.path = path) ↔
      was.valueAt path ≠ none ∧ now.valueAt path = none := by
  have names := @Json.missing_names was now Named.top settings path
  simp only [(sortBy_perm _).mem_iff]
  rw [names]
  constructor
  · rintro ⟨rest, rfl, lost⟩
    exact lost
  · intro lost
    exact ⟨path, rfl, lost⟩

/-- Nothing is lost when every path is still there. -/
theorem missing_eq_nil_iff
    {was now : Json} (settings : now.isObject = true) :
    sortBy Named.text (was.missing now Named.top) = [] ↔
      ∀ path, was.valueAt path ≠ none → now.valueAt path ≠ none := by
  constructor
  · intro nothing path has lost
    obtain ⟨named, member, _⟩ := (named_iff settings path).mpr ⟨has, lost⟩
    rw [nothing] at member
    cases member
  · intro kept
    refine List.eq_nil_iff_forall_not_mem.mpr fun named member => ?_
    obtain ⟨has, lost⟩ :=
      (named_iff settings named.path).mp ⟨named, member, rfl⟩
    exact kept named.path has lost

theorem reductions_compose
    {installed middle candidate : Raw}
    (first : reductions unmarshal installed middle = .ok [])
    (second : reductions unmarshal middle candidate = .ok []) :
    reductions unmarshal installed candidate = .ok [] := by
  obtain ⟨was, wasIs, between, betweenIs, kept⟩ :=
    reductions_eq_ok_iff.mp first
  obtain ⟨between', betweenIs', now, nowIs, still⟩ :=
    reductions_eq_ok_iff.mp second
  cases betweenIs.symm.trans betweenIs'
  have settings := isObject_of_object nowIs
  refine reductions_eq_ok_iff.mpr ⟨was, wasIs, now, nowIs, ?_⟩
  refine (missing_eq_nil_iff settings).mpr fun path has => ?_
  exact
    (missing_eq_nil_iff settings).mp still path
      ((missing_eq_nil_iff (isObject_of_object betweenIs)).mp kept path has)

/-- A path that is not carried is not there, or holds a null. -/
theorem not_carries_iff {json : Json} {path : List String} :
    ¬ json.Carries path ↔
      json.valueAt path = none ∨ json.valueAt path = some .null := by
  unfold Json.Carries
  cases json.valueAt path with
  | none => simp
  | some value => simp

theorem announces_iff
    {was now : Json} (settings : now.isObject = true) :
    Announces was now (sortBy Named.text (was.missing now Named.top)) ↔
      ∀ path, was.Carries path → now.valueAt path ≠ some .null := by
  constructor
  · intro announced path carried nulled
    have named :=
      announced.every path carried (not_carries_iff.mpr (Or.inr nulled))
    rw [named_iff settings, nulled] at named
    cases named.2
  · intro kept
    refine ⟨fun path carried gone => ?_, fun named member => ?_⟩
    · obtain ⟨value, has, _⟩ := carried
      refine (named_iff settings path).mpr ⟨by simp [has], ?_⟩
      exact
        (not_carries_iff.mp gone).resolve_right
          (kept path ⟨value, has, ‹_›⟩)
    · exact
        not_carries_iff.mpr
          (Or.inl ((named_iff settings named.path).mp ⟨named, member, rfl⟩).2)

/-- Every loss is announced exactly when no value is replaced by a null. -/
theorem announcesLosses_iff (installed candidate : Raw) :
    AnnouncesLosses unmarshal installed candidate ↔
      NothingNulled unmarshal installed candidate := by
  constructor
  · rintro ⟨announced, _⟩ was now wasIs nowIs
    obtain ⟨lost, ran, announces⟩ := announced was now wasIs nowIs
    have is :=
      reductions_eq_ok_iff.mpr ⟨was, wasIs, now, nowIs, rfl⟩
    cases ran.symm.trans is
    exact (announces_iff (isObject_of_object nowIs)).mp announces
  · intro kept
    refine ⟨fun was now wasIs nowIs => ?_, fun middle => reductions_compose⟩
    exact
      ⟨_, reductions_eq_ok_iff.mpr ⟨was, wasIs, now, nowIs, rfl⟩,
        (announces_iff (isObject_of_object nowIs)).mpr
          (kept was now wasIs nowIs)⟩

end Announcing

/-- One setting, under the key `interval`. -/
def oneSetting (value : Json) : Json := .object ["interval"] fun _ => value

/-- A setting replaced by a null is not announced. -/
theorem nulled_setting_not_announced :
    ¬ AnnouncesLosses some (oneSetting .scalar) (oneSetting .null) := by
  rintro ⟨announced, _⟩
  obtain ⟨lost, ran, announces⟩ := announced _ _ rfl rfl
  have nothing :
      reductions some (oneSetting .scalar) (oneSetting .null) = .ok [] := rfl
  cases ran.symm.trans nothing
  obtain ⟨named, member, _⟩ :=
    announces.every ["interval"] ⟨.scalar, rfl, nofun⟩
      (not_carries_iff.mpr (Or.inr rfl))
  cases member

end Hexroute.ConfigReduction
