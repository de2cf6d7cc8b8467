import Hexroute.IngressAgent.Version
import Hexroute.Lib.History
import Hexroute.Lib.Keyed

/-!
# Publishing configuration versions

The publisher verifies a signed version, writes its row in the ledger, puts
the version under its own label and then under the key that hosts read.  Any
of the three writes may fail, and one that is reported as failed may have
been made.
-/

namespace Hexroute.ConfigPublish

open Hexroute.Lib
open Hexroute.Policy (UUID SHA256 validUUID lowercase decimal)
open Hexroute.IngressAgent
  (Target TargetKind Statement Artifact Trust VersionError decode verify
    namedWith validLabel content_of_verify)

/-! ## Keys -/

/-- What a version is called: its target and its label. -/
structure Name where
  target : Target
  label : String
  deriving DecidableEq, Repr

def kindText : TargetKind → String
  | .node => "node"
  | .group => "group"
  | .globally => "global"

def keyPrefix : String := "versions"

def prefixFor (target : Target) : String :=
  keyPrefix ++ "/" ++ kindText target.kind ++ "/" ++ target.key ++ "/"

def objectKey (name : Name) : String :=
  prefixFor name.target ++ name.label ++ ".json"

def currentKey (target : Target) : String :=
  prefixFor target ++ "current.json"

/-- The target and the label are ones a statement may have. -/
def Name.Valid (name : Name) : Prop :=
  name.target.validate = true ∧ validLabel name.label = true

/-! ## The ledger -/

inductive PublishError where
  | publish
  | unverified (error : VersionError)
  | labelReused
  | database
  | storage
  deriving DecidableEq, Repr

structure Record where
  configVersionID : UUID
  name : Name
  schemaVersion : Nat
  contentSHA256 : SHA256
  signingKeyID : SHA256
  objectKey : String
  createdAt : Nat
  deriving DecidableEq, Repr

/-- A target has one row for a label. -/
structure Ledger where
  rows : List Record
  unique : (rows.map Record.name).Nodup

def Record.validate (record : Record) : Bool :=
  validUUID record.configVersionID &&
    decide (record.name.target.key ≠ "") &&
    decide (record.name.target.key.utf8ByteSize ≤ 192) &&
    decide (record.name.label ≠ "") &&
    decide (record.name.label.utf8ByteSize ≤ 128) &&
    decide (0 < record.schemaVersion) && decide (record.objectKey ≠ "") &&
    decide (record.contentSHA256 ≠ 0)

/-- Write a row, or find that the label names the same content already. -/
def Ledger.recordVersion (ledger : Ledger) (record : Record) :
    Except PublishError Ledger :=
  if record.validate = false then .error .publish
  else
    match found :
      ledger.rows.find? fun row => row.name = record.name with
    | some row =>
        if row.signingKeyID ≠ record.signingKeyID ∨
            row.contentSHA256 ≠ record.contentSHA256 then
          .error .labelReused
        else .ok ledger
    | none =>
        if record.configVersionID ∈ ledger.rows.map (·.configVersionID) then
          .error .database
        else
          .ok
            { rows := ledger.rows ++ [record]
              unique := by
                rw [List.map_append, List.map_singleton,
                  List.nodup_append]
                refine ⟨ledger.unique, List.nodup_singleton _, ?_⟩
                intro held member added single same
                obtain ⟨row, rowMember, rfl⟩ := List.mem_map.mp member
                rw [List.mem_singleton.mp single] at same
                have clear := List.find?_eq_none.mp found row rowMember
                simp [same] at clear }

/-! ## The publisher -/

/-- The ledger and the private bucket; `labelled` are the names under which
an object was put. -/
structure Store (β : Type) where
  ledger : Ledger
  objects : String → Option β
  labelled : List Name

def Store.empty {β : Type} : Store β where
  ledger := ⟨[], List.nodup_nil⟩
  objects _ := none
  labelled := []

def Store.putVersion {β : Type} (store : Store β) (key : String)
    (encoded : β) : Store β :=
  { store with objects := Function.update store.objects key (some encoded) }

/-- Put an object under its label. -/
def Store.putLabelled {β : Type} (store : Store β) (name : Name)
    (encoded : β) : Store β :=
  { store.putVersion (objectKey name) encoded with
    labelled := name :: store.labelled }

/-- One call of the publisher, at a time that is not zero, and what becomes of
its writes. -/
structure Call (β : Type) where
  encoded : β
  versionID : UUID
  now : Nat
  row : Fate
  object : Fate
  current : Fate

def nameOf (artifact : Artifact) : Name :=
  ⟨artifact.statement.target, artifact.statement.versionLabel⟩

def recordOf (artifact : Artifact) (versionID : UUID) (now : Nat) :
    Record where
  configVersionID := versionID
  name := nameOf artifact
  schemaVersion := artifact.statement.version
  contentSHA256 := artifact.statement.contentSHA256
  signingKeyID := artifact.statement.signerFingerprint
  objectKey := objectKey (nameOf artifact)
  createdAt := now

variable {β : Type} (trust : Trust β)

/-- The artifact of an encoding, if it decodes and verifies for the target it
names. -/
def verified (encoded : β) : Except VersionError Artifact :=
  match decode trust encoded with
  | .error error => .error error
  | .ok artifact =>
      match
        verify { trust with target := artifact.statement.target } artifact
      with
      | .error error => .error error
      | .ok _ => .ok artifact

/-- The row is written before the object, and the object under its label
before the one hosts read. -/
def publish (store : Store β) (call : Call β) :
    Except PublishError Record × Store β :=
  if validUUID call.versionID = false then (.error .publish, store)
  else
    match verified trust call.encoded with
    | .error error => (.error (.unverified error), store)
    | .ok artifact =>
        let record := recordOf artifact call.versionID call.now
        match store.ledger.recordVersion record with
        | .error error => (.error error, store)
        | .ok ledger =>
            let store :=
              if call.row.reaches then { store with ledger := ledger }
              else store
            if call.row ≠ .done then (.error .database, store)
            else
              let store :=
                if call.object.reaches then
                  store.putLabelled record.name call.encoded
                else store
              if call.object ≠ .done then (.error .storage, store)
              else
                let store :=
                  if call.current.reaches then
                    store.putVersion (currentKey record.name.target)
                      call.encoded
                  else store
                if call.current ≠ .done then (.error .storage, store)
                else (.ok record, store)

/-- The stores after a sequence of calls that began with empty ones. -/
abbrev after (calls : List (Call β)) : Store β :=
  stateAfter (fun store call => (publish trust store call).2) Store.empty
    calls

/-! ## One name, one content -/

/-- The object holds an artifact of the name with this content. -/
def Holds (store : Store β) (key : String) (name : Name) (content : SHA256) :
    Prop :=
  ∃ encoded artifact, store.objects key = some encoded ∧
    decode trust encoded = .ok artifact ∧ nameOf artifact = name ∧
    artifact.statement.contentSHA256 = content ∧
    trust.sha256 artifact.content = content

structure OneContent (store : Store β) : Prop where
  /-- An object under a label is what the row of the label says. -/
  held :
    ∀ name ∈ store.labelled, ∃ row ∈ store.ledger.rows,
      row.name = name ∧
        Holds trust store (objectKey name) name row.contentSHA256
  /-- Other names have other keys. -/
  distinct :
    ∀ name ∈ store.labelled, ∀ other ∈ store.labelled,
      objectKey name = objectKey other → name = other
  /-- No label has the key that hosts of a target read. -/
  apart :
    ∀ name ∈ store.labelled, ∀ target : Target, target.validate = true →
      objectKey name ≠ currentKey target
  /-- What hosts read is stored under its own label as well. -/
  current :
    ∀ target : Target, target.validate = true →
      store.objects (currentKey target) ≠ none →
        ∃ name ∈ store.labelled, ∃ content, name.target = target ∧
          Holds trust store (currentKey target) name content ∧
          Holds trust store (objectKey name) name content

/-! ## Keys are read back -/

theorem parts_eq_of_separated
    {separator : Char} {left other rest more : List Char}
    (leftFree : separator ∉ left) (otherFree : separator ∉ other)
    (same : left ++ separator :: rest = other ++ separator :: more) :
    left = other ∧ rest = more := by
  induction left generalizing other with
  | nil =>
      cases other with
      | nil =>
          exact ⟨rfl, by simpa using same⟩
      | cons head tail =>
          simp only [List.nil_append, List.cons_append, List.cons.injEq]
            at same
          rw [same.1] at otherFree
          exact absurd List.mem_cons_self otherFree
  | cons head tail inductionHypothesis =>
      cases other with
      | nil =>
          simp only [List.nil_append, List.cons_append, List.cons.injEq]
            at same
          rw [← same.1] at leftFree
          exact absurd List.mem_cons_self leftFree
      | cons first others =>
          simp only [List.cons_append, List.cons.injEq] at same
          have tails :=
            inductionHypothesis (fun member => leftFree (.tail _ member))
              (fun member => otherFree (.tail _ member)) same.2
          rw [same.1, tails.1, tails.2]
          exact ⟨rfl, rfl⟩

theorem not_mem_of_namedWith
    {marks : List Char} {longest : Nat} {text : String} {rune : Char}
    (named : namedWith marks longest text = true) (foreign : rune ∉ marks)
    (notLetter : lowercase rune = false) (notDigit : decimal rune = false) :
    rune ∉ text.toList := by
  unfold namedWith at named
  intro member
  split at named
  · cases named
  · rename_i first rest runes
    rw [runes] at member
    simp only [Bool.and_eq_true, List.all_eq_true] at named
    rcases List.mem_cons.mp member with rfl | later
    · simp [notLetter, notDigit] at named
    · have allowed := named.2 rune later
      simp [notLetter, notDigit, foreign] at allowed

theorem kindText_injective : Function.Injective kindText := by
  intro left right same
  cases left <;> cases right <;> first | rfl | exact absurd same (by decide)

theorem slash_not_mem_kindText (kind : TargetKind) :
    '/' ∉ (kindText kind).toList := by
  cases kind <;> decide

theorem objectKey_toList (name : Name) :
    (objectKey name).toList =
      keyPrefix.toList ++ '/' :: ((kindText name.target.kind).toList ++
        '/' :: (name.target.key.toList ++
          '/' :: (name.label.toList ++ ".json".toList))) := by
  simp [objectKey, prefixFor]

/-- A key tells the target and the label. -/
theorem objectKey_injective
    {name other : Name} (valid : name.Valid) (otherValid : other.Valid)
    (same : objectKey name = objectKey other) : name = other := by
  have lists := congrArg String.toList same
  rw [objectKey_toList, objectKey_toList] at lists
  have slashFree :
      ∀ {marks : List Char} {longest : Nat} {text : String},
        namedWith marks longest text = true → '/' ∉ marks →
          '/' ∉ text.toList := by
    intro marks longest text named foreign
    exact not_mem_of_namedWith named foreign (by decide) (by decide)
  have kinds := (parts_eq_of_separated (by decide) (by decide) lists).2
  obtain ⟨kind, keys⟩ :=
    parts_eq_of_separated (slash_not_mem_kindText _)
      (slash_not_mem_kindText _) kinds
  obtain ⟨key, labels⟩ :=
    parts_eq_of_separated (slashFree valid.1 (by decide))
      (slashFree otherValid.1 (by decide)) keys
  have label := List.append_cancel_right labels
  obtain ⟨⟨_, _⟩, _⟩ := name
  obtain ⟨⟨_, _⟩, _⟩ := other
  simp only [Name.mk.injEq, Target.mk.injEq]
  exact
    ⟨⟨kindText_injective (String.toList_injective kind),
      String.toList_injective key⟩, String.toList_injective label⟩

/-- The key that hosts read is the one of the label `current`. -/
theorem currentKey_eq (target : Target) :
    currentKey target = objectKey ⟨target, "current"⟩ := by
  apply String.toList_injective
  simp [currentKey, objectKey, prefixFor]

theorem valid_current {target : Target} (valid : target.validate = true) :
    (⟨target, "current"⟩ : Name).Valid := by
  have label : validLabel "current" = true := by decide
  exact ⟨valid, label⟩

theorem objectKey_ne_currentKey
    {name : Name} {target : Target} (valid : name.Valid)
    (targetValid : target.validate = true) (other : name.label ≠ "current") :
    objectKey name ≠ currentKey target := by
  intro same
  rw [currentKey_eq] at same
  have equal := objectKey_injective valid (valid_current targetValid) same
  rw [equal] at other
  exact other rfl

theorem currentKey_injective
    {target other : Target} (valid : target.validate = true)
    (otherValid : other.validate = true)
    (same : currentKey target = currentKey other) : target = other := by
  rw [currentKey_eq, currentKey_eq] at same
  have equal :=
    objectKey_injective (valid_current valid) (valid_current otherValid) same
  exact congrArg Name.target equal

/-! ## What a call does -/

variable {trust} {store : Store β} {call : Call β}

/-- The artifact of a call verifies, and its row is in the ledger. -/
structure Recorded (trust : Trust β) (call : Call β) (artifact : Artifact)
    (before after : Ledger) : Prop where
  decodes : decode trust call.encoded = .ok artifact
  valid : (nameOf artifact).Valid
  digest :
    trust.sha256 artifact.content = artifact.statement.contentSHA256
  kept : ∀ row ∈ before.rows, row ∈ after.rows
  row :
    ∃ row ∈ after.rows, row.name = nameOf artifact ∧
      row.contentSHA256 = artifact.statement.contentSHA256

/-- How far a call comes. -/
inductive Effect (trust : Trust β) (call : Call β) (store : Store β) :
    Store β → Prop where
  | nothing : Effect trust call store store
  | records {artifact : Artifact} {ledger : Ledger}
      (recorded : Recorded trust call artifact store.ledger ledger) :
      Effect trust call store { store with ledger := ledger }
  | stores {artifact : Artifact} {ledger : Ledger}
      (recorded : Recorded trust call artifact store.ledger ledger) :
      Effect trust call store
        (({ store with ledger := ledger } : Store β).putLabelled
          (nameOf artifact) call.encoded)
  | releases {artifact : Artifact} {ledger : Ledger}
      (recorded : Recorded trust call artifact store.ledger ledger) :
      Effect trust call store
        ((({ store with ledger := ledger } : Store β).putLabelled
          (nameOf artifact) call.encoded).putVersion
            (currentKey (nameOf artifact).target) call.encoded)

theorem recordVersion_eq_ok
    {ledger changed : Ledger} {record : Record}
    (recorded : ledger.recordVersion record = .ok changed) :
    (∀ row ∈ ledger.rows, row ∈ changed.rows) ∧
      ∃ row ∈ changed.rows, row.name = record.name ∧
        row.contentSHA256 = record.contentSHA256 := by
  unfold Ledger.recordVersion at recorded
  split at recorded
  · cases recorded
  split at recorded
  · rename_i row found
    split at recorded
    · cases recorded
    · rename_i same
      cases recorded
      rw [not_or, not_not, not_not] at same
      have named : row.name = record.name := by
        simpa using List.find?_some found
      exact
        ⟨fun _ member => member,
          row, List.mem_of_find?_eq_some found, named, same.2⟩
  · split at recorded
    · cases recorded
    · cases recorded
      exact
        ⟨fun _ member => List.mem_append_left _ member,
          record, by simp, rfl, rfl⟩

theorem verified_eq_ok
    {encoded : β} {artifact : Artifact}
    (verifies : verified trust encoded = .ok artifact) :
    decode trust encoded = .ok artifact ∧ (nameOf artifact).Valid ∧
      trust.sha256 artifact.content = artifact.statement.contentSHA256 := by
  unfold verified at verifies
  split at verifies
  · cases verifies
  · rename_i decoded decodes
    split at verifies
    · cases verifies
    · rename_i content checked
      cases verifies
      refine ⟨decodes, ?_, (content_of_verify checked).2⟩
      unfold decode at decodes
      split at decodes
      · cases decodes
      · split at decodes
        · rename_i structured
          cases decodes
          simp only [Artifact.validateStructure, Bool.and_eq_true]
            at structured
          exact
            ⟨structured.1.1.1.1.1.2, structured.1.1.1.1.2⟩
        · cases decodes

theorem publish_effect (store : Store β) (call : Call β) :
    Effect trust call store (publish trust store call).2 := by
  unfold publish
  split
  · exact .nothing
  split
  · exact .nothing
  rename_i artifact verifies
  obtain ⟨decodes, valid, digest⟩ := verified_eq_ok verifies
  dsimp only
  split
  · exact .nothing
  rename_i ledger written
  obtain ⟨kept, row⟩ := recordVersion_eq_ok written
  have recorded :
      Recorded trust call artifact store.ledger ledger :=
    ⟨decodes, valid, digest, kept, row⟩
  cases call.row with
  | lost => exact .nothing
  | unsaid => exact .records recorded
  | done =>
      cases call.object with
      | lost => exact .records recorded
      | unsaid => exact .stores recorded
      | done =>
          cases call.current with
          | lost => exact .stores recorded
          | unsaid => exact .releases recorded
          | done => exact .releases recorded

/-! ## What calls keep -/

theorem Holds.of_same
    {before after : Store β} {key : String} {name : Name} {content : SHA256}
    (holds : Holds trust before key name content)
    (same : after.objects key = before.objects key) :
    Holds trust after key name content := by
  obtain ⟨encoded, artifact, stored, rest⟩ := holds
  exact ⟨encoded, artifact, same.trans stored, rest⟩

theorem Recorded.holds
    {artifact : Artifact} {before after : Ledger}
    (recorded : Recorded trust call artifact before after) {key : String}
    {held : Store β} (stored : held.objects key = some call.encoded) :
    Holds trust held key (nameOf artifact)
      artifact.statement.contentSHA256 :=
  ⟨call.encoded, artifact, stored, recorded.decodes, rfl, rfl,
    recorded.digest⟩

/-- The invariant of publishing under other labels than `current`. -/
structure Sound (trust : Trust β) (store : Store β) : Prop where
  valid : ∀ name ∈ store.labelled, name.Valid
  free : ∀ name ∈ store.labelled, name.label ≠ "current"
  held :
    ∀ name ∈ store.labelled, ∃ row ∈ store.ledger.rows,
      row.name = name ∧
        Holds trust store (objectKey name) name row.contentSHA256
  current :
    ∀ target : Target, target.validate = true →
      store.objects (currentKey target) ≠ none →
        ∃ name ∈ store.labelled, ∃ content, name.target = target ∧
          Holds trust store (currentKey target) name content ∧
          Holds trust store (objectKey name) name content

namespace Sound

theorem empty : Sound trust (Store.empty : Store β) := by
  constructor
  all_goals simp [Store.empty]

theorem oneContent (sound : Sound trust store) : OneContent trust store where
  held := sound.held
  distinct := by
    intro name member other otherMember same
    exact
      objectKey_injective (sound.valid name member)
        (sound.valid other otherMember) same
  apart := by
    intro name member target valid
    exact
      objectKey_ne_currentKey (sound.valid name member) valid
        (sound.free name member)
  current := sound.current

theorem record
    {ledger : Ledger} (sound : Sound trust store)
    (kept : ∀ row ∈ store.ledger.rows, row ∈ ledger.rows) :
    Sound trust { store with ledger := ledger } where
  valid := sound.valid
  free := sound.free
  held := by
    intro name member
    obtain ⟨row, rowMember, named, holds⟩ := sound.held name member
    exact ⟨row, kept row rowMember, named, holds.of_same rfl⟩
  current := by
    intro target valid stored
    obtain ⟨name, member, content, own, read, labelled⟩ :=
      sound.current target valid stored
    exact
      ⟨name, member, content, own, read.of_same rfl, labelled.of_same rfl⟩

/-- The row of a name is the only one of it. -/
theorem content_eq
    (sound : Sound trust store) {artifact : Artifact}
    {row : Record} (member : row ∈ store.ledger.rows)
    (named : row.name = nameOf artifact)
    (same : row.contentSHA256 = artifact.statement.contentSHA256)
    {content : SHA256} (labelled : nameOf artifact ∈ store.labelled)
    (holds :
      Holds trust store (objectKey (nameOf artifact)) (nameOf artifact)
        content) :
    content = artifact.statement.contentSHA256 := by
  obtain ⟨other, otherMember, otherNamed, otherHolds⟩ :=
    sound.held _ labelled
  have rows : other = row :=
    List.inj_on_of_nodup_map store.ledger.unique otherMember member
      (otherNamed.trans named.symm)
  obtain ⟨_, _, stored, decodes, _, digest, _⟩ := holds
  obtain ⟨_, _, otherStored, otherDecodes, _, otherDigest, _⟩ := otherHolds
  rw [stored] at otherStored
  cases otherStored
  rw [decodes] at otherDecodes
  cases otherDecodes
  rw [← digest, otherDigest, rows, same]

theorem put
    {before : Ledger} {artifact : Artifact} (sound : Sound trust store)
    (recorded : Recorded trust call artifact before store.ledger)
    (free : (nameOf artifact).label ≠ "current") :
    Sound trust (store.putLabelled (nameOf artifact) call.encoded) := by
  obtain ⟨row, rowMember, named, content⟩ := recorded.row
  have own :
      Holds trust (store.putLabelled (nameOf artifact) call.encoded)
        (objectKey (nameOf artifact)) (nameOf artifact)
        artifact.statement.contentSHA256 :=
    recorded.holds (Function.update_self ..)
  have elsewhere :
      ∀ key, key ≠ objectKey (nameOf artifact) →
        (store.putLabelled (nameOf artifact) call.encoded).objects key =
          store.objects key :=
    fun key other => Function.update_of_ne other ..
  have read :
      ∀ target : Target, target.validate = true →
        (store.putLabelled (nameOf artifact) call.encoded).objects
            (currentKey target) = store.objects (currentKey target) :=
    fun target valid =>
      elsewhere _ (objectKey_ne_currentKey recorded.valid valid free).symm
  constructor
  case valid =>
    intro name member
    rcases List.mem_cons.mp member with rfl | old
    · exact recorded.valid
    · exact sound.valid name old
  case free =>
    intro name member
    rcases List.mem_cons.mp member with rfl | old
    · exact free
    · exact sound.free name old
  case held =>
    intro name member
    by_cases same : name = nameOf artifact
    · rw [same]
      exact ⟨row, rowMember, named, content ▸ own⟩
    · have old := (List.mem_cons.mp member).resolve_left same
      obtain ⟨held, heldMember, heldNamed, holds⟩ := sound.held name old
      refine ⟨held, heldMember, heldNamed, holds.of_same (elsewhere _ ?_)⟩
      intro keys
      exact
        same
          (objectKey_injective (sound.valid name old) recorded.valid keys)
  case current =>
    intro target valid stored
    rw [read target valid] at stored
    obtain ⟨name, member, kept, whose, holds, labelled⟩ :=
      sound.current target valid stored
    refine
      ⟨name, List.mem_cons_of_mem _ member, kept, whose,
        holds.of_same (read target valid), ?_⟩
    by_cases same : name = nameOf artifact
    · subst same
      rw [sound.content_eq rowMember named content member labelled]
      exact own
    · refine labelled.of_same (elsewhere _ ?_)
      intro keys
      exact
        same
          (objectKey_injective (sound.valid name member) recorded.valid keys)

/-- What has been put under its label may be put where hosts read. -/
theorem release
    {before : Ledger} {artifact : Artifact} (sound : Sound trust store)
    (recorded : Recorded trust call artifact before store.ledger)
    (labelled : nameOf artifact ∈ store.labelled)
    (holds :
      Holds trust store (objectKey (nameOf artifact)) (nameOf artifact)
        artifact.statement.contentSHA256) :
    Sound trust
      (store.putVersion (currentKey (nameOf artifact).target)
        call.encoded) := by
  have elsewhere :
      ∀ key, key ≠ currentKey (nameOf artifact).target →
        (store.putVersion (currentKey (nameOf artifact).target)
          call.encoded).objects key = store.objects key :=
    fun key other => Function.update_of_ne other ..
  have labels :
      ∀ name ∈ store.labelled,
        (store.putVersion (currentKey (nameOf artifact).target)
          call.encoded).objects (objectKey name) =
            store.objects (objectKey name) := by
    intro name member
    exact
      elsewhere _
        (objectKey_ne_currentKey (sound.valid name member) recorded.valid.1
          (sound.free name member))
  constructor
  case valid => exact sound.valid
  case free => exact sound.free
  case held =>
    intro name member
    obtain ⟨row, rowMember, named, own⟩ := sound.held name member
    exact ⟨row, rowMember, named, own.of_same (labels name member)⟩
  case current =>
    intro target valid stored
    by_cases same : target = (nameOf artifact).target
    · subst same
      exact
        ⟨nameOf artifact, labelled, _, rfl,
          recorded.holds (Function.update_self ..),
          holds.of_same (labels _ labelled)⟩
    · have keys :
          currentKey target ≠ currentKey (nameOf artifact).target :=
        fun keys => same (currentKey_injective valid recorded.valid.1 keys)
      rw [elsewhere _ keys] at stored
      obtain ⟨name, member, content, whose, read, own⟩ :=
        sound.current target valid stored
      exact
        ⟨name, member, content, whose, read.of_same (elsewhere _ keys),
          own.of_same (labels name member)⟩

theorem effect
    {next : Store β} (sound : Sound trust store)
    (effect : Effect trust call store next)
    (free : ∀ name ∈ next.labelled, name.label ≠ "current") :
    Sound trust next := by
  cases effect with
  | nothing => exact sound
  | records recorded => exact sound.record recorded.kept
  | stores recorded =>
      exact
        (sound.record recorded.kept).put recorded
          (free _ List.mem_cons_self)
  | releases recorded =>
      refine
        ((sound.record recorded.kept).put recorded
          (free _ List.mem_cons_self)).release recorded
            List.mem_cons_self ?_
      exact recorded.holds (Function.update_self ..)

end Sound

theorem labelled_publish :
    store.labelled ⊆ (publish trust store call).2.labelled := by
  have effect := @publish_effect β trust store call
  generalize (publish trust store call).2 = next at effect
  cases effect with
  | nothing => exact List.Subset.refl _
  | records _ => exact List.Subset.refl _
  | stores _ => exact List.subset_cons_self ..
  | releases _ => exact List.subset_cons_self ..

theorem valid_labelled (calls : List (Call β)) :
    ∀ name ∈ (after trust calls).labelled, name.Valid := by
  apply stateAfter_invariant
    fun held : Store β => ∀ name ∈ held.labelled, name.Valid
  · simp [Store.empty]
  · intro held call valid
    have effect := @publish_effect β trust held call
    generalize (publish trust held call).2 = next at effect
    cases effect with
    | nothing => exact valid
    | records _ => exact valid
    | stores recorded =>
        exact List.forall_mem_cons.mpr ⟨recorded.valid, valid⟩
    | releases recorded =>
        exact List.forall_mem_cons.mpr ⟨recorded.valid, valid⟩

theorem sound_after
    (calls : List (Call β))
    (free : ∀ name ∈ (after trust calls).labelled, name.label ≠ "current") :
    Sound trust (after trust calls) := by
  induction calls using List.reverseRecOn with
  | nil => exact Sound.empty
  | append_singleton calls call inductionHypothesis =>
      rw [after, stateAfter_snoc] at free ⊢
      have before := inductionHypothesis fun name member =>
        free name (labelled_publish member)
      exact before.effect (publish_effect _ call) free

/-- After any calls, whatever becomes of their writes, a name has one content
exactly if no object was put under the label `current`. -/
theorem oneContent_iff (calls : List (Call β)) :
    OneContent trust (after trust calls) ↔
      ∀ name ∈ (after trust calls).labelled, name.label ≠ "current" := by
  constructor
  · intro one name member named
    have valid := valid_labelled calls name member
    apply one.apart name member name.target valid.1
    rw [currentKey_eq, ← named]
  · intro free
    exact (sound_after calls free).oneContent

/-! ## A version labelled `current` -/

def operator : Trust Artifact where
  parse := some
  sha256 content := BitVec.ofNat 256 content.length
  fingerprint := 7
  genuine _ _ := true
  target := ⟨.node, "a"⟩

def artifactOf (label : String) (content : List (BitVec 8)) : Artifact where
  statement :=
    { schema := IngressAgent.statementSchema
      version := IngressAgent.statementVersion
      target := ⟨.node, "a"⟩
      versionLabel := label
      contentSHA256 := BitVec.ofNat 256 content.length
      contentBytes := content.length
      signerFingerprint := 7
      createdAt := 1 }
  signature := 0
  content := content

def callOf (label : String) (content : List (BitVec 8)) (id : BitVec 122) :
    Call Artifact :=
  ⟨artifactOf label content, .version4 id, 1, .done, .done, .done⟩

/-- The next version of the target replaces what is stored under the label
`current`. -/
theorem current_label_overwritten :
    ⟨⟨.node, "a"⟩, "current"⟩ ∈
        (after operator [callOf "current" [1] 1, callOf "v1" [2, 3] 2]).labelled ∧
      (after operator
          [callOf "current" [1] 1, callOf "v1" [2, 3] 2]).objects
        (objectKey ⟨⟨.node, "a"⟩, "current"⟩) =
          some (artifactOf "v1" [2, 3]) ∧
      ¬ OneContent operator
        (after operator [callOf "current" [1] 1, callOf "v1" [2, 3] 2]) := by
  have labelled :
      ⟨⟨.node, "a"⟩, "current"⟩ ∈
        (after operator
          [callOf "current" [1] 1, callOf "v1" [2, 3] 2]).labelled := by
    decide +kernel
  refine ⟨labelled, by decide +kernel, ?_⟩
  intro one
  have valid :
      (⟨.node, "a"⟩ : Target).validate = true := by
    decide +kernel
  exact one.apart _ labelled ⟨.node, "a"⟩ valid (currentKey_eq _).symm

end Hexroute.ConfigPublish
