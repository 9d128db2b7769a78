import McpMemory.Lib.Merge
import McpMemory.Lib.Table
import McpMemory.Lib.Text

/-! `SQLiteCachedEmbeddingProvider` before a `SentenceTransformerEmbedder`. The cache is keyed by namespace and content hash,
and while a call goes on other calls of the provider may load its model or find that it is unavailable. -/
namespace McpMemory.EmbeddingCache
open Merge Table Text

inductive Encoder where
  | model
  | fallback
  deriving DecidableEq, Repr

/- The provider as it is configured: its model, the `HashingEmbedder` behind it, and what both rest on. -/
structure Provider (ν : Type) where
  configuredModelName : String
  modelNamespace : Option String
  encode : Encoder → String → ν
  dim : ν → Nat
  dimension : ∀ encoder text other, dim (encode encoder text) = dim (encode encoder other)
  embeddingIdentity : String → String → String
  identityApart : ∀ encoderNamespace text other,
    embeddingIdentity text encoderNamespace = embeddingIdentity other encoderNamespace → text = other
  lower : String → String
  lowerStart : ∀ text, startsWith text "hash:" = true → startsWith (lower text) "hash:" = true

/- `_model` and `_use_fallback` -/
inductive Loaded where
  | unloaded
  | model
  | fallback
  deriving DecidableEq, Repr

/- The cache is the rows that were put, the last first. -/
structure Row (ν : Type) where
  encoderNamespace : String
  contentHash : String
  vector : ν
  deriving DecidableEq, Repr

structure Cached (ν : Type) where
  loaded : Loaded
  cacheDisabled : Bool
  cacheNamespace : Option String
  rows : List (Row ν)
  deriving DecidableEq, Repr

/- What happens around a call: at four points another call may try to load the model, with this outcome; whether
the model can be loaded by the call itself; and where the cache fails. -/
structure Weather where
  beforeCheck : Option Bool
  beforeNamespace : Option Bool
  beforeEmbed : Option Bool
  beforePut : Option Bool
  available : Bool
  opens : Bool
  gets : Bool
  reopens : Bool
  puts : Bool
  deriving DecidableEq, Repr

inductive EmbedError where
  | valueError
  | keyError
  deriving DecidableEq, Repr

variable {ν : Type} (p : Provider ν)

/- `_ensure_model_loaded` without a download. -/
def ensureModelLoaded (available : Bool) : Loaded → Loaded
  | .unloaded => if available then .model else .fallback
  | loaded => loaded

def cacheModel (available : Bool) : Loaded → Loaded
  | .model => .model
  | loaded => if available then .model else loaded

def others (attempt : Option Bool) (loaded : Loaded) : Loaded := match attempt with
  | none => loaded
  | some available => ensureModelLoaded available loaded

def fallbackModelName : String := "hash:" ++ p.configuredModelName

def modelName : Loaded → String
  | .fallback => fallbackModelName p
  | _ => p.configuredModelName

/- `encoder_namespace` of the provider, and of what wraps it. -/

def providerNamespace (loaded : Loaded) : String := match loaded,p.modelNamespace with
  | .model,some encoderNamespace => if encoderNamespace.isEmpty then modelName p loaded else encoderNamespace
  | _,_ => modelName p loaded

def encoderNamespace (loaded : Loaded) : String :=
  if (providerNamespace p loaded).isEmpty then modelName p loaded else providerNamespace p loaded

def isFallbackEmbeddingModel (name : String) : Bool :=
  startsWith (p.lower (strip name)) "hash:" || p.lower (strip name) == "hashing-local"

def encoderOf : Loaded → Encoder
  | .model => .model
  | _ => .fallback

/- `embed` of the provider alone. -/
def providerEmbed (available : Bool) (texts : List String) (loaded : Loaded) : List ν × Loaded :=
  if texts.isEmpty then ([],loaded)
  else let loaded := ensureModelLoaded available loaded
    (texts.map (p.encode (encoderOf loaded)),loaded)

def dictOf {α : Type} (entries : List (String × α)) : List (String × α) :=
  entries.foldl (fun entries entry => setEntry entries entry.1 entry.2) []

def findRow (rows : List (Row ν)) (encoderNamespace contentHash : String) : Option ν :=
  (rows.find? fun row => row.encoderNamespace == encoderNamespace && row.contentHash == contentHash).map (·.vector)

def disable (c : Cached ν) : Cached ν := { c with cacheDisabled := true, cacheNamespace := none }

/- `_get_cache`, as the namespace of the cache that is open after it. -/
def getCache (opens : Bool) (c : Cached ν) : Option String × Cached ν :=
  if c.cacheDisabled then (none,c)
  else if c.cacheNamespace = some (encoderNamespace p c.loaded) then (c.cacheNamespace,c)
  else if opens then (some (encoderNamespace p c.loaded),{ c with cacheNamespace := some (encoderNamespace p c.loaded) })
  else (none,disable c)

/- `_put_computed_vectors` -/
def putComputedVectors (w : Weather) (computed : List (String × ν)) (sourceNamespace : String) (texts : List (String × String))
    (c : Cached ν) : Cached ν :=
  if isFallbackEmbeddingModel p (modelName p c.loaded) then c
  else match getCache p w.reopens c with
    | (none,c) => c
    | (some cacheNamespace,c) =>
      let rows : List (Row ν) := computed.map fun entry => ⟨cacheNamespace,
        if cacheNamespace == sourceNamespace then entry.1
        else p.embeddingIdentity ((texts.lookup entry.1).getD "") cacheNamespace,entry.2⟩
      if w.puts then { c with rows := rows.reverse ++ c.rows } else disable c

def Cached.meanwhile (attempt : Option Bool) (c : Cached ν) : Cached ν := { c with loaded := others attempt c.loaded }

def alone (w : Weather) (texts : List String) (c : Cached ν) : Except EmbedError (List ν) × Cached ν :=
  let c := c.meanwhile w.beforeEmbed
  let embedded := providerEmbed p w.available texts c.loaded
  (.ok embedded.1,{ c with loaded := embedded.2 })

/- The hits of a call, and the texts that miss. -/

def cachedVectors (sourceNamespace : String) (texts : List String) (c : Cached ν) : List (String × ν) :=
  texts.filterMap fun text =>
    (findRow c.rows sourceNamespace (p.embeddingIdentity text sourceNamespace)).map (p.embeddingIdentity text sourceNamespace,·)

def missingTexts (sourceNamespace : String) (texts : List String) (c : Cached ν) : List (String × String) :=
  dictOf ((texts.filter fun text => (findRow c.rows sourceNamespace (p.embeddingIdentity text sourceNamespace)).isNone).map
    fun text => (p.embeddingIdentity text sourceNamespace,text))

def collect (found : List (String × ν)) : List String → Except EmbedError (List ν)
  | [] => .ok []
  | contentHash::rest => match found.lookup contentHash with
    | none => .error .keyError
    | some vector => (collect found rest).map (vector::·)

def embedCached (w : Weather) (sourceNamespace : String) (texts : List String) (c : Cached ν) : Except EmbedError (List ν) × Cached ν :=
  let cached := cachedVectors p sourceNamespace texts c
  let missing := missingTexts p sourceNamespace texts c
  let hashes := texts.map fun text => p.embeddingIdentity text sourceNamespace
  if missing.isEmpty then (collect cached hashes,c)
  else
    let c := c.meanwhile w.beforeEmbed
    let embedded := providerEmbed p w.available (missing.map Prod.snd) c.loaded
    let c := { c with loaded := embedded.2 }
    if embedded.1.length ≠ missing.length then (.error .valueError,c)
    else
      let computed := (missing.map Prod.fst).zip embedded.1
      let c := putComputedVectors p w computed sourceNamespace missing (c.meanwhile w.beforePut)
      (collect (cached ++ computed) hashes,c)

/- `embed` -/
def embed (w : Weather) (texts : List String) (c : Cached ν) : Except EmbedError (List ν) × Cached ν :=
  if texts.isEmpty then (.ok [],c)
  else
    let c := c.meanwhile w.beforeCheck
    let later := c.meanwhile w.beforeNamespace
    if isFallbackEmbeddingModel p (modelName p c.loaded) then alone p w texts later
    else match getCache p w.opens later with
      | (none,c) => alone p w texts c
      | (some sourceNamespace,c) =>
        if w.gets then embedCached p w sourceNamespace texts c else alone p w texts (disable c)

inductive Op where
  | embed (w : Weather) (texts : List String)
  | cacheModel (available : Bool)
  | restart
  deriving DecidableEq, Repr

def next (c : Cached ν) : Op → Cached ν
  | .embed w texts => (embed p w texts c).2
  | .cacheModel available => { c with loaded := cacheModel available c.loaded }
  | .restart => ⟨.unloaded,false,none,c.rows⟩

/- Every cache content and state that the provider comes to. -/
def history (ops : List Op) : Cached ν := ops.foldl (next p) ⟨.unloaded,false,none,[]⟩

/- The state at the moment when a call comes to its lookup. -/
def atLookup (w : Weather) (c : Cached ν) : Cached ν := (c.meanwhile w.beforeCheck).meanwhile w.beforeNamespace

/- What the provider alone encodes with, called when the cached one would call it. -/
def aloneEncoder (w : Weather) (c : Cached ν) : Encoder :=
  encoderOf (ensureModelLoaded w.available (others w.beforeEmbed (atLookup w c).loaded))

/- The call finds the text in its cache. -/
def hit (w : Weather) (c : Cached ν) (text : String) : Bool :=
  !isFallbackEmbeddingModel p (modelName p (c.meanwhile w.beforeCheck).loaded) &&
    match (getCache p w.opens (atLookup w c)).1 with
    | none => false
    | some sourceNamespace => w.gets && (findRow c.rows sourceNamespace (p.embeddingIdentity text sourceNamespace)).isSome

/- One vector for each text, as the provider alone gives it, all of one encoder and one dimension. -/
structure Transparent (w : Weather) (texts : List String) (c : Cached ν) : Prop where
  same : (embed p w texts c).1 = .ok (texts.map (p.encode (aloneEncoder w c)))
  oneEncoder : ∃ encoder, (embed p w texts c).1 = .ok (texts.map (p.encode encoder))
  oneDimension : ∀ vectors, (embed p w texts c).1 = .ok vectors → ∀ vector ∈ vectors, ∀ other ∈ vectors, p.dim vector = p.dim other

/- What is cached was computed by the model. -/
def Sound (rows : List (Row ν)) : Prop := ∀ row ∈ rows, ∃ text,
  row.contentHash = p.embeddingIdentity text row.encoderNamespace ∧ row.vector = p.encode .model text

section
variable {α : Type} {key : String} {value : α} {entries : List (String × α)}

theorem setMember {entry : String × α} (member : entry ∈ setEntry entries key value) : entry = (key,value) ∨ entry ∈ entries := by
  unfold setEntry at member
  split at member
  · obtain ⟨old,listed,rfl⟩ := List.mem_map.mp member
    split
    · exact .inl rfl
    · exact .inr listed
  · rcases List.mem_append.mp member with old | new
    · exact .inr old
    · exact .inl (List.mem_singleton.mp new)

theorem setHas {other : String} (has : other = key ∨ other ∈ keys entries) : other ∈ keys (setEntry entries key value) := by
  rw [keysSet]
  split
  · rename_i present
    exact has.elim (fun same => same ▸ present) id
  · exact List.mem_append.mpr (has.symm.imp id fun same => List.mem_singleton.mpr same)

theorem dictFrom {given : List (String × α)} :
    (∀ entry ∈ given.foldl (fun entries entry => setEntry entries entry.1 entry.2) entries, entry ∈ entries ∨ entry ∈ given) ∧
      ∀ other, (other ∈ keys entries ∨ other ∈ keys given) →
        other ∈ keys (given.foldl (fun entries entry => setEntry entries entry.1 entry.2) entries) := by
  induction given generalizing entries with
  | nil => exact ⟨fun _ member => .inl member,fun _ has => has.resolve_right List.not_mem_nil⟩
  | cons first rest ih =>
    obtain ⟨inside,has⟩ := @ih (setEntry entries first.1 first.2)
    refine ⟨fun entry member => ?_,fun other known => has other ?_⟩
    · rcases inside entry member with old | later
      · rcases setMember old with rfl | old
        · exact .inr List.mem_cons_self
        · exact .inl old
      · exact .inr (List.mem_cons_of_mem _ later)
    · rcases known with old | new
      · exact .inl (setHas (.inr old))
      · rcases List.mem_cons.mp new with same | later
        · exact .inl (setHas (.inl same))
        · exact .inr later

theorem dictMember {given : List (String × α)} {entry : String × α} (member : entry ∈ dictOf given) : entry ∈ given :=
  (dictFrom.1 entry member).resolve_left List.not_mem_nil

theorem dictHas {given : List (String × α)} {entry : String × α} (member : entry ∈ given) :
    ∃ value, (entry.1,value) ∈ dictOf given := by
  have known := (@dictFrom α [] given).2 entry.1 (.inr (List.mem_map_of_mem member))
  obtain ⟨found,listed,same⟩ := List.mem_map.mp known
  exact ⟨found.2,same ▸ listed⟩

end

variable {p}

theorem collected {found : List (String × ν)} {contentHash : String → String} {vectorOf : String → ν} {texts : List String}
    (each : ∀ text ∈ texts, found.lookup (contentHash text) = some (vectorOf text)) :
    collect found (texts.map contentHash) = .ok (texts.map vectorOf) := by
  induction texts with
  | nil => rfl
  | cons text rest ih =>
    rw [List.map_cons,collect,each text List.mem_cons_self]
    simp only
    rw [ih fun later member => each later (List.mem_cons_of_mem _ member)]
    rfl

theorem findRowKey {rows : List (Row ν)} {encoderNamespace contentHash : String} {vector : ν}
    (found : findRow rows encoderNamespace contentHash = some vector) :
    ∃ row ∈ rows, row.encoderNamespace = encoderNamespace ∧ row.contentHash = contentHash ∧ row.vector = vector := by
  obtain ⟨row,first,rfl⟩ := Option.map_eq_some_iff.mp found
  have matched := List.find?_some first
  simp only [Bool.and_eq_true,beq_iff_eq] at matched
  exact ⟨row,List.mem_of_find?_eq_some first,matched.1,matched.2,rfl⟩

theorem soundHit {rows : List (Row ν)} (sound : Sound p rows) {sourceNamespace text : String} {vector : ν}
    (found : findRow rows sourceNamespace (p.embeddingIdentity text sourceNamespace) = some vector) : vector = p.encode .model text := by
  obtain ⟨row,listed,rfl,same,rfl⟩ := findRowKey found
  obtain ⟨other,hashed,encoded⟩ := sound row listed
  rw [encoded,p.identityApart _ _ _ (same.symm.trans hashed)]

section
variable {sourceNamespace : String} {texts : List String} {c : Cached ν}

theorem missingMember {entry : String × String} (member : entry ∈ missingTexts p sourceNamespace texts c) :
    entry.1 = p.embeddingIdentity entry.2 sourceNamespace ∧ entry.2 ∈ texts ∧
      findRow c.rows sourceNamespace (p.embeddingIdentity entry.2 sourceNamespace) = none := by
  obtain ⟨text,missing,rfl⟩ := List.mem_map.mp (dictMember member)
  obtain ⟨listed,none⟩ := List.mem_filter.mp missing
  exact ⟨rfl,listed,Option.isNone_iff_eq_none.mp none⟩

theorem missingHas {text : String} (listed : text ∈ texts)
    (absent : findRow c.rows sourceNamespace (p.embeddingIdentity text sourceNamespace) = none) :
    (p.embeddingIdentity text sourceNamespace,text) ∈ missingTexts p sourceNamespace texts c := by
  have given : (p.embeddingIdentity text sourceNamespace,text) ∈
      (texts.filter fun text => (findRow c.rows sourceNamespace (p.embeddingIdentity text sourceNamespace)).isNone).map
        fun text => (p.embeddingIdentity text sourceNamespace,text) :=
    List.mem_map.mpr ⟨text,List.mem_filter.mpr ⟨listed,Option.isNone_iff_eq_none.mpr absent⟩,rfl⟩
  obtain ⟨other,member⟩ := dictHas given
  have same := p.identityApart _ _ _ (missingMember member).1
  exact same ▸ member

/- A hash that is computed is computed for one text. -/
theorem computedLookup {encoder : Encoder} {text : String} (listed : text ∈ texts)
    (absent : findRow c.rows sourceNamespace (p.embeddingIdentity text sourceNamespace) = none) :
    ((missingTexts p sourceNamespace texts c).map fun entry => (entry.1,p.encode encoder entry.2)).lookup
      (p.embeddingIdentity text sourceNamespace) = some (p.encode encoder text) := by
  refine lookupOne (List.mem_map.mpr ⟨_,missingHas listed absent,rfl⟩) fun entry member same => ?_
  obtain ⟨old,inside,rfl⟩ := List.mem_map.mp member
  rw [p.identityApart _ _ _ ((missingMember inside).1.symm.trans same)]

theorem cachedLookup {text : String} {vector : ν} (listed : text ∈ texts)
    (found : findRow c.rows sourceNamespace (p.embeddingIdentity text sourceNamespace) = some vector) :
    (cachedVectors p sourceNamespace texts c).lookup (p.embeddingIdentity text sourceNamespace) = some vector := by
  refine lookupOne (List.mem_filterMap.mpr ⟨text,listed,by rw [found]; rfl⟩) fun entry member same => ?_
  obtain ⟨other,_,hit⟩ := List.mem_filterMap.mp member
  obtain ⟨old,there,rfl⟩ := Option.map_eq_some_iff.mp hit
  have hashed : p.embeddingIdentity other sourceNamespace = p.embeddingIdentity text sourceNamespace := same
  rw [hashed,found] at there
  exact (Option.some.inj there).symm

theorem cachedNone {text : String} (absent : findRow c.rows sourceNamespace (p.embeddingIdentity text sourceNamespace) = none) :
    (cachedVectors p sourceNamespace texts c).lookup (p.embeddingIdentity text sourceNamespace) = none := by
  refine lookupNone fun entry member same => ?_
  obtain ⟨other,_,hit⟩ := List.mem_filterMap.mp member
  obtain ⟨old,there,rfl⟩ := Option.map_eq_some_iff.mp hit
  have hashed : p.embeddingIdentity other sourceNamespace = p.embeddingIdentity text sourceNamespace := same
  rw [hashed,absent] at there
  cases there

theorem zipEncoded {encoder : Encoder} {missing : List (String × String)} :
    (missing.map Prod.fst).zip ((missing.map Prod.snd).map (p.encode encoder)) =
      missing.map fun entry => (entry.1,p.encode encoder entry.2) := by
  rw [List.map_map,List.zip_map']
  rfl

/- Each text gets its cached vector, or what the provider encodes it with by then. -/
theorem embedCachedGives (w : Weather) : (embedCached p w sourceNamespace texts c).1 = .ok (texts.map fun text =>
    (findRow c.rows sourceNamespace (p.embeddingIdentity text sourceNamespace)).getD
      (p.encode (encoderOf (ensureModelLoaded w.available (others w.beforeEmbed c.loaded))) text)) := by
  cases empty : (missingTexts p sourceNamespace texts c).isEmpty with
  | true =>
    rw [embedCached,empty]
    refine collected fun text listed => ?_
    cases found : findRow c.rows sourceNamespace (p.embeddingIdentity text sourceNamespace) with
    | some vector => exact cachedLookup listed found
    | none =>
      have missing := missingHas listed found
      rw [List.isEmpty_iff.mp empty] at missing
      exact absurd missing List.not_mem_nil
  | false =>
    have texted : ((missingTexts p sourceNamespace texts c).map Prod.snd).isEmpty = false := by
      rw [List.isEmpty_map,empty]
    have counted (encoder : Encoder) : ((missingTexts p sourceNamespace texts c).map Prod.snd |>.map (p.encode encoder)).length =
        (missingTexts p sourceNamespace texts c).length := by
      rw [List.length_map,List.length_map]
    simp only [embedCached,empty,providerEmbed,texted,Bool.false_eq_true,↓reduceIte,counted,ne_eq,not_true_eq_false,zipEncoded]
    refine collected fun text listed => ?_
    rw [List.lookup_append]
    cases found : findRow c.rows sourceNamespace (p.embeddingIdentity text sourceNamespace) with
    | some vector =>
      rw [cachedLookup listed found]
      rfl
    | none =>
      rw [cachedNone found,computedLookup listed found]
      rfl

end

theorem getCacheKeeps (opens : Bool) (c : Cached ν) :
    (getCache p opens c).2.loaded = c.loaded ∧ (getCache p opens c).2.rows = c.rows := by
  unfold getCache
  split
  · exact ⟨rfl,rfl⟩
  · split
    · exact ⟨rfl,rfl⟩
    · split
      · exact ⟨rfl,rfl⟩
      · exact ⟨rfl,rfl⟩

section
variable {w : Weather} {texts : List String} {c : Cached ν}

theorem aloneGives (some : texts.isEmpty = false) :
    (alone p w texts c).1 = .ok (texts.map (p.encode (encoderOf (ensureModelLoaded w.available (others w.beforeEmbed c.loaded))))) := by
  simp only [alone,providerEmbed,some,Bool.false_eq_true,↓reduceIte]
  rfl

/- What a call gives: hits are the vectors of the model, and the others those of the provider alone. -/
theorem embedGives (sound : Sound p c.rows) : (embed p w texts c).1 = .ok (texts.map fun text =>
    if hit p w c text then p.encode .model text else p.encode (aloneEncoder w c) text) := by
  cases empty : texts.isEmpty with
  | true =>
    rw [embed,empty,List.isEmpty_iff.mp empty]
    rfl
  | false =>
    have kept := @getCacheKeeps _ p w.opens (atLookup w c)
    unfold embed
    rw [empty]
    simp only [Bool.false_eq_true,↓reduceIte]
    cases fallen : isFallbackEmbeddingModel p (modelName p (c.meanwhile w.beforeCheck).loaded) with
    | true =>
      have missed (text : String) : hit p w c text = false := by
        rw [hit,fallen]
        rfl
      simp only [missed,Bool.false_eq_true,↓reduceIte]
      exact aloneGives empty
    | false =>
      simp only [Bool.false_eq_true,↓reduceIte]
      change (match getCache p w.opens (atLookup w c) with
        | (none,c) => alone p w texts c
        | (some sourceNamespace,c) =>
          if w.gets then embedCached p w sourceNamespace texts c else alone p w texts (disable c)).1 = _
      cases cache : getCache p w.opens (atLookup w c) with
      | mk found after =>
        rw [cache] at kept
        have loaded : after.loaded = (atLookup w c).loaded := kept.1
        have rows : after.rows = c.rows := kept.2
        cases found with
        | none =>
          have missed (text : String) : hit p w c text = false := by
            rw [hit,fallen,cache]
            rfl
          simp only [missed,Bool.false_eq_true,↓reduceIte]
          rw [aloneGives empty,loaded]
          rfl
        | some sourceNamespace =>
          have hits (text : String) : hit p w c text =
              (w.gets && (findRow c.rows sourceNamespace (p.embeddingIdentity text sourceNamespace)).isSome) := by
            rw [hit,fallen,cache]
            rfl
          cases gets : w.gets with
          | false =>
            simp only [hits,gets,Bool.false_and,Bool.false_eq_true,↓reduceIte]
            rw [aloneGives empty]
            show Except.ok (texts.map (p.encode (encoderOf (ensureModelLoaded w.available (others w.beforeEmbed after.loaded))))) = _
            rw [loaded]
            rfl
          | true =>
            simp only [hits,gets,Bool.true_and,↓reduceIte]
            rw [embedCachedGives,loaded,rows]
            refine congrArg Except.ok (List.map_congr_left fun text _ => ?_)
            cases there : findRow c.rows sourceNamespace (p.embeddingIdentity text sourceNamespace) with
            | none => rfl
            | some vector => exact soundHit sound there

end

/- A start without white space at its ends survives a strip. -/
theorem stripStart {first : List Char} (tight : Tight first) (solid : first ≠ []) (rest : List Char) :
    first <+: stripList (first ++ rest) := by
  rw [stripList,dropFront tight.front solid,List.reverse_append,List.dropWhile_append]
  split
  · rw [tight.back,List.reverse_reverse]
  · rw [List.reverse_append,List.reverse_reverse]
    exact List.prefix_append first _

/- The name of the fallback is one of a fallback. -/
theorem fallbackNamed : isFallbackEmbeddingModel p (fallbackModelName p) = true := by
  have start : "hash:".toList <+: stripList ("hash:".toList ++ p.configuredModelName.toList) :=
    stripStart ⟨by decide,by decide⟩ (by decide) _
  have named : startsWith (strip (fallbackModelName p)) "hash:" = true := by
    have whole : (strip (fallbackModelName p)).toList = stripList ("hash:".toList ++ p.configuredModelName.toList) := by
      rw [strip,fallbackModelName,String.toList_append]
      exact String.toList_ofList
    rw [startsWith,List.isPrefixOf_iff_prefix,whole]
    exact start
  rw [isFallbackEmbeddingModel,p.lowerStart _ named]
  rfl

theorem missingLookup {sourceNamespace text : String} {texts : List String} {c : Cached ν}
    (member : (p.embeddingIdentity text sourceNamespace,text) ∈ missingTexts p sourceNamespace texts c) :
    (missingTexts p sourceNamespace texts c).lookup (p.embeddingIdentity text sourceNamespace) = some text :=
  lookupOne member fun _ inside same => p.identityApart _ _ _ ((missingMember inside).1.symm.trans same)

theorem soundMore {rows added : List (Row ν)} (sound : Sound p rows) (new : Sound p added) : Sound p (added.reverse ++ rows) := by
  intro row member
  rcases List.mem_append.mp member with here | old
  · exact new row (List.mem_reverse.mp here)
  · exact sound row old

theorem putSound {w : Weather} {sourceNamespace : String} {texts : List String} {c asked : Cached ν} (sound : Sound p c.rows)
    (settled : c.loaded ≠ .unloaded) : Sound p (putComputedVectors p w
      ((missingTexts p sourceNamespace texts asked).map fun entry => (entry.1,p.encode (encoderOf c.loaded) entry.2)) sourceNamespace
      (missingTexts p sourceNamespace texts asked) c).rows := by
  unfold putComputedVectors
  split
  · exact sound
  · rename_i true_
    have loaded : c.loaded = .model := by
      cases here : c.loaded with
      | unloaded => exact absurd here settled
      | model => rfl
      | fallback =>
        rw [here] at true_
        exact absurd fallbackNamed true_
    have kept := @getCacheKeeps _ p w.reopens c
    cases cache : getCache p w.reopens c with
    | mk found after =>
      rw [cache] at kept
      have rows : after.rows = c.rows := kept.2
      cases found with
      | none => exact rows ▸ sound
      | some cacheNamespace =>
        simp only
        split
        · refine soundMore (rows ▸ sound) fun row member => ?_
          obtain ⟨entry,computed,rfl⟩ := List.mem_map.mp member
          obtain ⟨⟨contentHash,text⟩,missing,rfl⟩ := List.mem_map.mp computed
          have hashed : contentHash = p.embeddingIdentity text sourceNamespace := (missingMember missing).1
          subst hashed
          refine ⟨text,?_,by rw [loaded]; rfl⟩
          simp only
          split
          · rename_i same
            rw [beq_iff_eq.mp same]
          · rw [missingLookup missing]
            rfl
        · exact rows ▸ sound

theorem ensureSettled {available : Bool} {loaded : Loaded} : ensureModelLoaded available loaded ≠ .unloaded := by
  cases loaded <;> cases available <;> decide

theorem othersSettled {attempt : Option Bool} {loaded : Loaded} (settled : loaded ≠ .unloaded) : others attempt loaded = loaded := by
  cases attempt with
  | none => rfl
  | some available => cases loaded with
    | unloaded => exact absurd rfl settled
    | model => rfl
    | fallback => rfl

theorem embedCachedSound {w : Weather} {sourceNamespace : String} {texts : List String} {c : Cached ν} (sound : Sound p c.rows) :
    Sound p (embedCached p w sourceNamespace texts c).2.rows := by
  cases empty : (missingTexts p sourceNamespace texts c).isEmpty with
  | true =>
    rw [embedCached,empty]
    exact sound
  | false =>
    have texted : ((missingTexts p sourceNamespace texts c).map Prod.snd).isEmpty = false := by
      rw [List.isEmpty_map,empty]
    have counted (encoder : Encoder) : ((missingTexts p sourceNamespace texts c).map Prod.snd |>.map (p.encode encoder)).length =
        (missingTexts p sourceNamespace texts c).length := by
      rw [List.length_map,List.length_map]
    simp only [embedCached,empty,providerEmbed,texted,Bool.false_eq_true,↓reduceIte,counted,ne_eq,not_true_eq_false,zipEncoded]
    generalize settled : ensureModelLoaded w.available (c.meanwhile w.beforeEmbed).loaded = loaded
    have known : loaded ≠ .unloaded := settled ▸ ensureSettled
    have stays := @othersSettled w.beforePut loaded known
    have put := @putSound _ p w sourceNamespace texts { c with loaded := loaded } c sound known
    simp only [Cached.meanwhile,stays]
    exact put

theorem embedSound {w : Weather} {texts : List String} {c : Cached ν} (sound : Sound p c.rows) : Sound p (embed p w texts c).2.rows := by
  unfold embed
  split
  · exact sound
  · simp only
    split
    · exact sound
    · have kept := @getCacheKeeps _ p w.opens ((c.meanwhile w.beforeCheck).meanwhile w.beforeNamespace)
      cases cache : getCache p w.opens ((c.meanwhile w.beforeCheck).meanwhile w.beforeNamespace) with
      | mk found after =>
        rw [cache] at kept
        have rows : Sound p after.rows := kept.2 ▸ sound
        cases found with
        | none => exact rows
        | some sourceNamespace =>
          simp only
          split
          · exact embedCachedSound rows
          · exact rows

theorem nextSound {c : Cached ν} (sound : Sound p c.rows) (op : Op) : Sound p (next p c op).rows := by
  cases op with
  | embed w texts => exact embedSound sound
  | cacheModel available => exact sound
  | restart => exact sound

theorem runSound (ops : List Op) {c : Cached ν} (sound : Sound p c.rows) : Sound p (ops.foldl (next p) c).rows := by
  induction ops generalizing c with
  | nil => exact sound
  | cons op rest ih => exact ih (nextSound sound op)

/- The cache is transparent to a call exactly where no text of it is a hit whose model is unavailable by the time
that the others are embedded, but for one that the fallback encodes alike. -/
theorem cacheTransparent (p : Provider ν) (ops : List Op) (w : Weather) (texts : List String) :
    Transparent p w texts (history p ops) ↔ ∀ text ∈ texts, hit p w (history p ops) text = true →
      aloneEncoder w (history p ops) = .model ∨ p.encode .model text = p.encode .fallback text := by
  have sound : Sound p (history p ops).rows := runSound ops fun _ member => absurd member List.not_mem_nil
  have gives := @embedGives _ p w texts (history p ops) sound
  constructor
  · intro transparent text listed found
    have same := gives.symm.trans transparent.same
    have each := List.map_inj_left.mp (Except.ok.inj same) text listed
    rw [if_pos found] at each
    cases encoder : aloneEncoder w (history p ops) with
    | model => exact .inl rfl
    | fallback => exact .inr (encoder ▸ each)
  · intro steady
    have same : (embed p w texts (history p ops)).1 = .ok (texts.map (p.encode (aloneEncoder w (history p ops)))) := by
      rw [gives]
      refine congrArg Except.ok (List.map_congr_left fun text listed => ?_)
      split
      · rename_i found
        rcases steady text listed found with model | alike
        · rw [model]
        · cases aloneEncoder w (history p ops) with
          | model => rfl
          | fallback => exact alike
      · rfl
    refine ⟨same,⟨_,same⟩,fun vectors embedded vector here other there => ?_⟩
    cases Except.ok.inj (same.symm.trans embedded)
    obtain ⟨text,_,rfl⟩ := List.mem_map.mp here
    obtain ⟨otherText,_,rfl⟩ := List.mem_map.mp there
    exact p.dimension _ _ _

/- A text that a former process has cached, and one that is new when the model is no longer there. -/

def smallProvider : Provider (Encoder × String) where
  configuredModelName := "bge-small"
  modelNamespace := none
  encode := fun encoder text => (encoder,text)
  dim := fun _ => 64
  dimension := fun _ _ _ => rfl
  embeddingIdentity := fun text encoderNamespace => encoderNamespace ++ text
  identityApart := fun _ _ _ same => String.append_right_inj _ |>.mp same
  lower := id
  lowerStart := fun _ start => start

def calm (available : Bool) : Weather := ⟨none,none,none,none,available,true,true,true,true⟩

def formerProcess : List Op := [.embed (calm true) ["cats"],.restart]

theorem encodersMixed : ¬ Transparent smallProvider (calm false) ["cats","dogs"] (history smallProvider formerProcess) := by
  intro transparent
  have mixed : (embed smallProvider (calm false) ["cats","dogs"] (history smallProvider formerProcess)).1 =
      .ok [(.model,"cats"),(.fallback,"dogs")] := by decide +kernel
  cases mixed.symm.trans transparent.same

end McpMemory.EmbeddingCache
