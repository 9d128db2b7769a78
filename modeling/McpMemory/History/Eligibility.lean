import McpMemory.Curation.Footprint
import McpMemory.Curation.RewriteCommits
import McpMemory.History.Inverse

/-! `MutationHistoryService._analyze_restore`: whether an event can be undone in the state of
the memories and the links now. -/
namespace McpMemory.History
open Memory Text Canonical Transaction

variable (env : Canonical.Env)

/- The rows of `memory_protections`, with their modes as they are stored. -/
abbrev Protections := List Curation.Protection

def getProtections (protections : Protections) (memoryId : String) : Protections :=
  protections.filter (·.memoryId == memoryId)

/- A dictionary. -/
def assign {α : Type} (entries : List (String × α)) (key : String) (value : α) : List (String × α) :=
  if entries.any (·.1 == key) then entries.map fun entry => if entry.1 == key then (key,value) else entry
  else entries ++ [(key,value)]

structure Findings where
  recordTokens : List (String × String)
  linkTokens : List (String × String)
  protections : List (String × Protections)

structure RestoreAnalysis where
  inverse : Option InverseDescription
  conflict : Option RestoreConflict
  findings : Findings
  conflictCode : Option ConflictCode
  conflictReason : Option String

def getMemory (t : Tables) (memoryId : Uuid) : Option MemoryRecord := recordById memoryId.text t

/- The loops over the changes stop at the first stale state, of which they give the reason. -/
abbrev Scan (α : Type) := α → Findings → Except String (Findings × Option String)

def scanAll {α : Type} (scan : Scan α) : List α → Findings → Except String (Findings × Option String)
  | [],findings => .ok (findings,none)
  | change::rest,findings => do
    match ← scan change findings with
    | (findings,some reason) => .ok (findings,some reason)
    | (findings,none) => scanAll scan rest findings

def readToken (record : MemoryRecord) : Except String String :=
  (recordToken env record).mapError fun key => "duplicate canonical JSON key: '" ++ key ++ "'"

def missingTarget (memoryId : Uuid) : String := "target memory " ++ memoryId.text ++ " is missing"

variable (protections : Protections) (t : Tables)

def scanRecord : Scan InverseRecordChange := fun change findings =>
  let memoryId := change.memoryId.text
  let findings := { findings with
    protections := assign findings.protections memoryId (getProtections protections memoryId) }
  match getMemory t change.memoryId with
  | none => .ok (findings,some (missingTarget change.memoryId))
  | some record => do
    let token ← readToken env record
    let findings := { findings with recordTokens := assign findings.recordTokens memoryId token }
    if change.expectedCurrentToken ≠ some token then
      .ok (findings,some ("current record token is stale for " ++ memoryId))
    else .ok (findings,none)

def scanEnd : Scan Uuid := fun memoryId findings =>
  let findings := if findings.protections.any (·.1 == memoryId.text) then findings else { findings with
    protections := assign findings.protections memoryId.text (getProtections protections memoryId.text) }
  match getMemory t memoryId with
  | none => .ok (findings,some (missingTarget memoryId))
  | some record => do
    let token ← readToken env record
    .ok ({ findings with recordTokens := assign findings.recordTokens memoryId.text token },none)

def keyOf (change : InverseLinkChange) : String :=
  change.sourceId.text ++ ":" ++ change.targetId.text ++ ":" ++ change.linkType

def isStaleLink (change : InverseLinkChange) (current : Option MemoryLink) : Bool :=
  change.present != current.isSome || current.any fun link => some link.context != change.context

def scanLink : Scan InverseLinkChange := fun change findings => do
  match ← scanAll (scanEnd env protections t) [change.sourceId,change.targetId] findings with
  | (findings,some reason) => .ok (findings,some reason)
  | (findings,none) =>
    let current := selectLink change.sourceId.text change.targetId.text change.linkType t
    let token ← (linkToken env change.sourceId.text change.targetId.text change.linkType (current.map (·.context))
      current.isSome).mapError fun key => "duplicate canonical JSON key: '" ++ key ++ "'"
    let findings := { findings with linkTokens := assign findings.linkTokens (keyOf change) token }
    if isStaleLink change current then .ok (findings,some ("current link state is stale for " ++ keyOf change))
    else .ok (findings,none)

def analysed (inverse : InverseDescription) (findings : Findings) (stale : Option String) : RestoreAnalysis :=
  ⟨some inverse,none,findings,stale.map fun _ => .staleState,stale⟩

def analyzeRestore (event : MutationEvent) (records : List RecordRevision) (links : List LinkRevision) :
    Except String RestoreAnalysis :=
  match buildInverse env event records links with
  | .error conflict => .ok ⟨none,some conflict,⟨[],[],[]⟩,none,none⟩
  | .ok inverse => do
    match ← scanAll (scanRecord env protections t) inverse.recordChanges ⟨[],[],[]⟩ with
    | (findings,some reason) => .ok (analysed inverse findings (some reason))
    | (findings,none) => do
      let ended ← scanAll (scanLink env protections t) inverse.linkChanges findings
      .ok (analysed inverse ended.1 ended.2)

def asksConfirmation (analysis : RestoreAnalysis) : Bool :=
  analysis.findings.protections.any fun item => item.2.any (·.mode == "manual_review_required")

def protectionDenies (analysis : RestoreAnalysis) : Bool :=
  analysis.findings.protections.any fun item => item.2.any (·.mode == "no_autonomous_mutation")

/- `conflict_code` of `get_restore_eligibility`; without one the event is eligible. -/
def eligibilityCode (analysis : RestoreAnalysis) : Option String :=
  match analysis.conflict.map (·.code) with
  | some code => some code.text
  | none => match analysis.conflictCode with
    | some code => some code.text
    | none =>
      if protectionDenies analysis then some "protection_denied"
      else if asksConfirmation analysis then some "confirmation_required"
      else none

/- The parts of the state that an event changed, as the event left them. -/

def RecordAsLeft (revision : RecordRevision) : Prop :=
  match getMemory t revision.memoryId with
  | none => revision.afterExists = false
  | some record => revision.afterExists = true ∧ ∃ token, recordToken env record = .ok token ∧
      revision.afterToken = some token

def LinkAsLeft (revision : LinkRevision) : Prop :=
  match selectLink revision.sourceId.text revision.targetId.text revision.linkType t with
  | none => revision.afterExists = false
  | some link => revision.afterExists = true ∧ revision.context = some link.context

def AsLeft (records : List RecordRevision) (links : List LinkRevision) : Prop :=
  (∀ revision ∈ records, RecordAsLeft env t revision) ∧ ∀ revision ∈ links, LinkAsLeft t revision

def RestoreAnalysis.Eligible (analysis : RestoreAnalysis) : Prop :=
  analysis.conflict = none ∧ analysis.conflictCode = none

def RestoreAnalysis.Stale (analysis : RestoreAnalysis) : Prop :=
  analysis.conflict = none ∧ analysis.conflictCode = some .staleState

/- Eligible while the state is as the event left it, and stale once it is not. -/
def Truthful (event : MutationEvent) (records : List RecordRevision) (links : List LinkRevision) : Prop :=
  (AsLeft env t records links → ∃ analysis, analyzeRestore env protections t event records links = .ok analysis ∧
    analysis.Eligible) ∧
  (¬ AsLeft env t records links → ∃ analysis, analyzeRestore env protections t event records links = .ok analysis ∧
    analysis.Stale)

/- The memory is there, and no two keys of its metadata have one normal form. -/
def Readable (memoryId : Uuid) : Prop := ∃ record token, getMemory t memoryId = some record ∧
  recordToken env record = .ok token

/- Where the comparison of a link says what it should. -/
def Settled (revision : LinkRevision) : Prop :=
  (¬ LinkAsLeft t revision ∧ (getMemory t revision.sourceId = none ∨
    Readable env t revision.sourceId ∧ getMemory t revision.targetId = none)) ∨
  (Readable env t revision.sourceId ∧ Readable env t revision.targetId ∧
    ∃ link, selectLink revision.sourceId.text revision.targetId.text revision.linkType t = some link ∧
      revision.context ≠ some link.context)

section
variable {env protections t} {event : MutationEvent} {records : List RecordRevision} {links : List LinkRevision}

theorem conflictOk {α : Type} {code operation reason} {a : α} : ¬ conflict code operation reason = .ok a := by
  simp [conflict]

theorem recordComplete {revision after} (checked : recordConflict env event revision = .ok ())
    (shown : revision.afterSnapshot = some after) :
    revision.afterExists = true ∧ ∃ token, revision.afterToken = some token := by
  unfold recordConflict at checked
  split at checked
  · exact absurd checked conflictOk
  split at checked
  · exact absurd checked conflictOk
  rename_i flags
  have there : revision.afterExists = true := by
    rw [shown] at flags
    simpa using (not_or.mp flags).2
  split at checked
  · exact absurd checked conflictOk
  split at checked
  · exact absurd checked conflictOk
  rename_i tokened
  rw [there,Bool.true_and] at tokened
  cases given : revision.afterToken with
  | none =>
    rw [given] at tokened
    exact absurd rfl tokened
  | some token => exact ⟨there,token,rfl⟩

/- The events that have an inverse. -/
theorem inverseSource {inverse} (built : buildInverse env event records links = .ok inverse) :
    (∃ revision snapshot token, records = [revision] ∧ links = [] ∧ revision.afterExists = true ∧
      revision.afterToken = some token ∧ inverse = ⟨event.operation,"restore_record",[⟨revision.memoryId,
        revision.beforeExists,some snapshot,some token,revision.beforeToken⟩],[]⟩) ∨
    ∃ revision, records = [] ∧ links = [revision] ∧ revision.beforeExists ≠ revision.afterExists ∧
      inverse = ⟨event.operation,"remove_link",[],[⟨revision.sourceId,revision.targetId,revision.linkType,
        revision.context,revision.beforeExists⟩]⟩ := by
  unfold buildInverse at built
  split at built
  · exact absurd built conflictOk
  split at built
  · exact absurd built conflictOk
  split at built
  · unfold buildRecordInverse at built
    split at built
    · rename_i revision
      obtain ⟨_,checked,built⟩ := checkedOk.mp built
      split at built
      · rename_i before after _ shown
        obtain ⟨snapshot,_,built⟩ := checkedOk.mp built
        cases built
        obtain ⟨there,token,given⟩ := recordComplete checked shown
        exact .inl ⟨revision,snapshot,token,rfl,rfl,there,given,by rw [given]⟩
      · exact absurd built conflictOk
    · exact absurd built conflictOk
  split at built
  · unfold buildLinkInverse at built
    split at built
    · split at built
      · exact absurd built conflictOk
      · rename_i revision transition
        cases built
        exact .inr ⟨revision,rfl,rfl,fun same => transition (.inr (.inr same)),rfl⟩
    · exact absurd built conflictOk
  · exact absurd built conflictOk

/- A link token is the hash of plain fields. -/
theorem linkTokenOk (plain : env.unicode.Plain) (sourceId targetId linkType : String) (context : Option String)
    (present : Bool) : ∃ token, linkToken env sourceId targetId linkType context present = .ok token := by
  have contextual : Tidy (optional (context.map (normalizeText env))) := by cases context <;> trivial
  exact normalHash (tidyNormal plain _ ⟨by simp,by decide,trivial,by decide,trivial,by decide,trivial,by decide,trivial,
    by decide,contextual,by decide,trivial,trivial⟩)

theorem truthfulIff : Truthful env protections t event records links ↔
    ∃ analysis, analyzeRestore env protections t event records links = .ok analysis ∧ analysis.conflict = none ∧
      (AsLeft env t records links ∧ analysis.conflictCode = none ∨
        ¬ AsLeft env t records links ∧ analysis.conflictCode = some .staleState) := by
  constructor
  · intro truthful
    by_cases asLeft : AsLeft env t records links
    · obtain ⟨analysis,ran,eligible⟩ := truthful.1 asLeft
      exact ⟨analysis,ran,eligible.1,.inl ⟨asLeft,eligible.2⟩⟩
    · obtain ⟨analysis,ran,stale⟩ := truthful.2 asLeft
      exact ⟨analysis,ran,stale.1,.inr ⟨asLeft,stale.2⟩⟩
  · rintro ⟨analysis,ran,fine,⟨asLeft,code⟩ | ⟨changed,code⟩⟩
    · exact ⟨fun _ => ⟨analysis,ran,fine,code⟩,fun changed => absurd asLeft changed⟩
    · exact ⟨fun asLeft => absurd asLeft changed,fun _ => ⟨analysis,ran,fine,code⟩⟩

theorem recordTruthful {revision : RecordRevision} {snapshot token} (there : revision.afterExists = true)
    (given : revision.afterToken = some token) (built : buildInverse env event [revision] [] = .ok
      ⟨event.operation,"restore_record",[⟨revision.memoryId,revision.beforeExists,some snapshot,some token,
        revision.beforeToken⟩],[]⟩) :
    Truthful env protections t event [revision] [] ↔
      ∀ record, getMemory t revision.memoryId = some record → ∃ token, recordToken env record = .ok token := by
  have asLeft : AsLeft env t [revision] [] ↔ RecordAsLeft env t revision := by simp [AsLeft]
  rw [truthfulIff,asLeft]
  cases found : getMemory t revision.memoryId with
  | none =>
    have changed : ¬ RecordAsLeft env t revision := by simp [RecordAsLeft,found,there]
    simp only [analyzeRestore,built,scanAll,scanRecord,found,bind,Except.bind]
    exact ⟨fun _ _ none => (by cases none),fun _ => ⟨_,rfl,rfl,.inr ⟨changed,rfl⟩⟩⟩
  | some record =>
    cases made : recordToken env record with
    | error error =>
      simp only [analyzeRestore,built,scanAll,scanRecord,found,readToken,made,Except.mapError,bind,Except.bind]
      refine ⟨fun ⟨_,ran,_⟩ => (by cases ran),fun readable => ?_⟩
      obtain ⟨token,fine⟩ := readable record rfl
      rw [made] at fine
      cases fine
    | ok current =>
      have same : RecordAsLeft env t revision ↔ token = current := by
        simp [RecordAsLeft,found,there,made,given]
      simp only [analyzeRestore,built,scanAll,scanRecord,found,readToken,made,Except.mapError,bind,Except.bind]
      refine ⟨fun _ record here => ⟨current,by cases here; exact made⟩,fun _ => ?_⟩
      by_cases fresh : token = current
      · subst fresh
        rw [if_neg (not_not.mpr rfl)]
        exact ⟨_,rfl,rfl,.inl ⟨same.mpr rfl,rfl⟩⟩
      · rw [if_pos fun same => fresh (Option.some.inj same)]
        exact ⟨_,rfl,rfl,.inr ⟨fun asLeft => fresh (same.mp asLeft),rfl⟩⟩

theorem scanEndGone {memoryId : Uuid} (gone : getMemory t memoryId = none) (findings : Findings) :
    ∃ after, scanEnd env protections t memoryId findings = .ok (after,some (missingTarget memoryId)) := by
  simp only [scanEnd,gone]
  exact ⟨_,rfl⟩

theorem scanEndRead {memoryId : Uuid} (readable : Readable env t memoryId) (findings : Findings) :
    ∃ after, scanEnd env protections t memoryId findings = .ok (after,none) := by
  obtain ⟨record,token,found,made⟩ := readable
  simp only [scanEnd,found,readToken,made,Except.mapError,bind,Except.bind]
  exact ⟨_,rfl⟩

theorem scanEndUnread {memoryId : Uuid} (there : getMemory t memoryId ≠ none) (unread : ¬ Readable env t memoryId)
    (findings : Findings) : ∃ error, scanEnd env protections t memoryId findings = .error error := by
  obtain ⟨record,found⟩ := Option.ne_none_iff_exists'.mp there
  cases made : recordToken env record with
  | ok token => exact absurd ⟨record,token,found,made⟩ unread
  | error error =>
    simp only [scanEnd,found,readToken,made,Except.mapError,bind,Except.bind]
    exact ⟨_,rfl⟩

theorem readableThere {memoryId : Uuid} (readable : Readable env t memoryId) : getMemory t memoryId ≠ none := by
  obtain ⟨record,_,found,_⟩ := readable
  simp [found]

/- The two ends of a link, in their order. -/
theorem scanEnds (sourceId targetId : Uuid) (findings : Findings) :
    (∃ after reason, scanAll (scanEnd env protections t) [sourceId,targetId] findings = .ok (after,some reason) ∧
      (getMemory t sourceId = none ∨ Readable env t sourceId ∧ getMemory t targetId = none)) ∨
    (∃ error, scanAll (scanEnd env protections t) [sourceId,targetId] findings = .error error) ∧
      (getMemory t sourceId ≠ none ∧ ¬ Readable env t sourceId ∨
        Readable env t sourceId ∧ getMemory t targetId ≠ none ∧ ¬ Readable env t targetId) ∨
    ∃ after, scanAll (scanEnd env protections t) [sourceId,targetId] findings = .ok (after,none) ∧
      Readable env t sourceId ∧ Readable env t targetId := by
  by_cases gone : getMemory t sourceId = none
  · obtain ⟨after,ran⟩ := @scanEndGone env protections t _ gone findings
    exact .inl ⟨after,missingTarget sourceId,by simp only [scanAll,ran,bind,Except.bind],.inl gone⟩
  by_cases source : Readable env t sourceId
  · obtain ⟨middle,first⟩ := @scanEndRead env protections t _ source findings
    by_cases gone : getMemory t targetId = none
    · obtain ⟨after,ran⟩ := @scanEndGone env protections t _ gone middle
      exact .inl ⟨after,missingTarget targetId,by simp only [scanAll,first,ran,bind,Except.bind],.inr ⟨source,gone⟩⟩
    by_cases target : Readable env t targetId
    · obtain ⟨after,ran⟩ := @scanEndRead env protections t _ target middle
      exact .inr (.inr ⟨after,by simp only [scanAll,first,ran,bind,Except.bind],source,target⟩)
    · obtain ⟨error,ran⟩ := @scanEndUnread env protections t _ gone target middle
      exact .inr (.inl ⟨⟨error,by simp only [scanAll,first,ran,bind,Except.bind]⟩,.inr ⟨source,gone,target⟩⟩)
  · obtain ⟨error,ran⟩ := @scanEndUnread env protections t _ gone source findings
    exact .inr (.inl ⟨⟨error,by simp only [scanAll,ran,bind,Except.bind]⟩,.inl ⟨gone,source⟩⟩)

/- The comparison looks for the link as it was before the event. -/
theorem staleLink {revision : LinkRevision} (transition : revision.beforeExists ≠ revision.afterExists) :
    isStaleLink ⟨revision.sourceId,revision.targetId,revision.linkType,revision.context,revision.beforeExists⟩
      (selectLink revision.sourceId.text revision.targetId.text revision.linkType t) = true ↔
      (LinkAsLeft t revision ∨ ∃ link, selectLink revision.sourceId.text revision.targetId.text revision.linkType t =
        some link ∧ revision.context ≠ some link.context) := by
  have flipped : revision.beforeExists = !revision.afterExists := Bool.eq_not.mpr transition
  unfold isStaleLink LinkAsLeft
  cases selectLink revision.sourceId.text revision.targetId.text revision.linkType t with
  | none => simp [flipped]
  | some link =>
    by_cases same : revision.context = some link.context
    · simp [flipped,same]
    · have other : ¬ some link.context = revision.context := fun equal => same equal.symm
      simp [same,other]

theorem scanNone {α : Type} {scan : Scan α} {findings : Findings} : scanAll scan [] findings = .ok (findings,none) := rfl

theorem scanOne {α : Type} {scan : Scan α} {change : α} {findings : Findings} :
    scanAll scan [change] findings = scan change findings := by
  simp only [scanAll,bind,Except.bind]
  rcases scan change findings with error | ⟨after,reason | _⟩ <;> rfl

theorem linkTruthful (plain : env.unicode.Plain) {revision : LinkRevision}
    (transition : revision.beforeExists ≠ revision.afterExists) (built : buildInverse env event [] [revision] = .ok
      ⟨event.operation,"remove_link",[],[⟨revision.sourceId,revision.targetId,revision.linkType,revision.context,
        revision.beforeExists⟩]⟩) :
    Truthful env protections t event [] [revision] ↔ Settled env t revision := by
  have asLeft : AsLeft env t [] [revision] ↔ LinkAsLeft t revision := by simp [AsLeft]
  rw [truthfulIff,asLeft]
  simp only [analyzeRestore,built,scanNone,scanOne,scanLink,bind,Except.bind]
  rcases @scanEnds env protections t revision.sourceId revision.targetId ⟨[],[],[]⟩ with
    ⟨after,reason,ran,gone⟩ | ⟨⟨error,ran⟩,unread⟩ | ⟨after,ran,source,target⟩
  · -- An end is gone: stale, whatever became of the link.
    rw [ran]
    refine ⟨?_,fun settled => ⟨_,rfl,rfl,.inr ⟨?_,rfl⟩⟩⟩
    · rintro ⟨analysis,same,_,verdict⟩
      cases same
      rcases verdict with ⟨_,eligible⟩ | ⟨changed,_⟩
      · cases eligible
      · exact .inl ⟨changed,gone⟩
    · rcases settled with ⟨changed,_⟩ | ⟨source,target,_⟩
      · exact changed
      · rcases gone with gone | ⟨_,gone⟩
        · exact absurd gone (readableThere source)
        · exact absurd gone (readableThere target)
  · -- The token of an end raises.
    rw [ran]
    refine ⟨?_,fun settled => ?_⟩
    · rintro ⟨_,same,_⟩
      cases same
    rcases settled with ⟨_,gone | ⟨source,gone⟩⟩ | ⟨source,target,_⟩
    · rcases unread with ⟨there,_⟩ | ⟨source,_⟩
      · exact absurd gone there
      · exact absurd gone (readableThere source)
    · rcases unread with ⟨_,away⟩ | ⟨_,there,_⟩
      · exact absurd source away
      · exact absurd gone there
    · rcases unread with ⟨_,away⟩ | ⟨_,_,away⟩
      · exact absurd source away
      · exact absurd target away
  · -- Both ends are there, so the link decides.
    obtain ⟨token,made⟩ := linkTokenOk plain revision.sourceId.text revision.targetId.text revision.linkType
      ((selectLink revision.sourceId.text revision.targetId.text revision.linkType t).map (·.context))
      (selectLink revision.sourceId.text revision.targetId.text revision.linkType t).isSome
    have stale := @staleLink t revision transition
    have unsettled (current : ¬ ∃ link, selectLink revision.sourceId.text revision.targetId.text revision.linkType t =
        some link ∧ revision.context ≠ some link.context) : ¬ Settled env t revision := by
      rintro (⟨_,gone | ⟨_,gone⟩⟩ | ⟨_,_,other⟩)
      · exact readableThere source gone
      · exact readableThere target gone
      · exact current other
    rw [ran]
    simp only [made,Except.mapError]
    by_cases found : isStaleLink ⟨revision.sourceId,revision.targetId,revision.linkType,revision.context,
        revision.beforeExists⟩ (selectLink revision.sourceId.text revision.targetId.text revision.linkType t) = true
    · rw [if_pos found]
      by_cases other : ∃ link, selectLink revision.sourceId.text revision.targetId.text revision.linkType t =
          some link ∧ revision.context ≠ some link.context
      · have changed : ¬ LinkAsLeft t revision := by
          obtain ⟨link,here,differs⟩ := other
          rw [LinkAsLeft,here]
          exact fun asLeft => differs asLeft.2
        exact ⟨fun _ => .inr ⟨source,target,other⟩,fun _ => ⟨_,rfl,rfl,.inr ⟨changed,rfl⟩⟩⟩
      · refine ⟨?_,fun settled => absurd settled (unsettled other)⟩
        rintro ⟨analysis,same,_,verdict⟩
        cases same
        rcases verdict with ⟨_,eligible⟩ | ⟨changed,_⟩
        · cases eligible
        · exact absurd ((stale.mp found).resolve_right other) changed
    · rw [if_neg found]
      rw [stale,not_or] at found
      refine ⟨?_,fun settled => absurd settled (unsettled found.2)⟩
      rintro ⟨analysis,same,_,verdict⟩
      cases same
      rcases verdict with ⟨asLeft,_⟩ | ⟨_,code⟩
      · exact absurd asLeft found.1
      · cases code

/- For every event that has an inverse and every state of the memories and the links. -/
theorem eligibilityTruthful (plain : env.unicode.Plain) {inverse} (built : buildInverse env event records links = .ok inverse) :
    Truthful env protections t event records links ↔
      (∀ revision ∈ records, ∀ record, getMemory t revision.memoryId = some record →
        ∃ token, recordToken env record = .ok token) ∧ ∀ revision ∈ links, Settled env t revision := by
  rcases inverseSource built with ⟨revision,snapshot,token,rfl,rfl,there,given,same⟩ | ⟨revision,rfl,rfl,transition,same⟩
  · rw [recordTruthful there given (same ▸ built)]
    simp
  · rw [linkTruthful plain transition (same ▸ built)]
    simp

end

/- A link that was created and then given another context. -/

theorem firstCanonical : Curation.uuid Curation.firstId = .ok Curation.firstId := rfl

theorem secondCanonical : Curation.uuid Curation.secondId = .ok Curation.secondId := rfl

def first : Uuid := ⟨Curation.firstId,firstCanonical⟩

def second : Uuid := ⟨Curation.secondId,secondCanonical⟩

def linkCreated : MutationEvent :=
  ⟨first,"create_link",.maintenance,some "curation",none,none,none,none,none,.applied,none,none,"t0"⟩

def created (context : String) : LinkRevision := ⟨first,second,first,"NEXT",some context,false,true⟩

def plainEnv : Canonical.Env := ⟨⟨id,id,id,idParts⟩,fun _ => "digest"⟩

theorem plainUnicode : plainEnv.unicode.Plain := ⟨fun _ _ => rfl,fun _ _ => rfl⟩

theorem createdInverse (context : String) : buildInverse plainEnv linkCreated [] [created context] = .ok
    ⟨"create_link","remove_link",[],[⟨second,first,"NEXT",some context,false⟩]⟩ := by
  have named : strip "NEXT" ≠ "" := by decide
  simp [buildInverse,buildLinkInverse,linkCreated,created,unsupported,recordOperations,named]

theorem noteReadable (memoryId : Uuid) (row : MemoryRow) (bare : row.metadata = [])
    (found : selectRow memoryId.text Curation.linkedNotes.memory = some row) :
    Readable plainEnv Curation.linkedNotes.memory memoryId := by
  obtain ⟨token,made⟩ := @Curation.tokenedBare plainEnv plainUnicode (hydrateRecord Curation.linkedNotes.memory row) bare
  exact ⟨_,token,by rw [getMemory,recordById,found]; rfl,made.token⟩

theorem eligibilityTruthfulSample :
    Truthful plainEnv [] Curation.linkedNotes.memory linkCreated [] [created "earlier"] := by
  refine (eligibilityTruthful plainUnicode (createdInverse "earlier")).mpr ⟨fun _ member => (by cases member),
    fun revision member => ?_⟩
  cases List.mem_singleton.mp member
  exact .inr ⟨noteReadable second _ rfl rfl,noteReadable first _ rfl rfl,⟨Curation.secondId,Curation.firstId,"NEXT",""⟩,
    by decide +kernel,by decide⟩

/- The link is as the event left it. -/
theorem createdLinkStale : AsLeft plainEnv Curation.linkedNotes.memory [] [created ""] ∧
    ∃ analysis, analyzeRestore plainEnv [] Curation.linkedNotes.memory linkCreated [] [created ""] = .ok analysis ∧
      analysis.Stale ∧ ¬ analysis.Eligible := by
  have asLeft : AsLeft plainEnv Curation.linkedNotes.memory [] [created ""] := by
    refine ⟨fun _ member => (by cases member),fun revision member => ?_⟩
    cases List.mem_singleton.mp member
    have found : selectLink Curation.secondId Curation.firstId "NEXT" Curation.linkedNotes.memory =
      some ⟨Curation.secondId,Curation.firstId,"NEXT",""⟩ := by decide +kernel
    show LinkAsLeft Curation.linkedNotes.memory (created "")
    unfold LinkAsLeft created first second
    dsimp only
    rw [found]
    exact ⟨rfl,rfl⟩
  have ran : ((analyzeRestore plainEnv [] Curation.linkedNotes.memory linkCreated [] [created ""]).toOption.map
      fun analysis => (analysis.conflict,analysis.conflictCode)) = some (none,some .staleState) := by decide +kernel
  refine ⟨asLeft,?_⟩
  cases result : analyzeRestore plainEnv [] Curation.linkedNotes.memory linkCreated [] [created ""] with
  | error error =>
    rw [result] at ran
    cases ran
  | ok analysis =>
    rw [result] at ran
    obtain ⟨fine,code⟩ := Prod.mk.inj (Option.some.inj ran)
    exact ⟨analysis,rfl,⟨fine,code⟩,fun eligible => by rw [eligible.2] at code; cases code⟩

end McpMemory.History
