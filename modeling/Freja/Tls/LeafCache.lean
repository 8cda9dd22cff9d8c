import Freja.Domain.Endpoint
import Freja.Foundation.Recency
import Freja.Foundation.Runs

namespace Freja.Tls
open Domain Bytes Recency

def alpnHttp2 : List UInt8 := utf8 "h2"

def alpnHttp11 : List UInt8 := utf8 "http/1.1"

structure LeafCacheKey where
  host : String
  alpn : Option (List UInt8)
  deriving DecidableEq, Hashable

inductive TlsError where
  | leafCertificate
  | serverConfiguration
  deriving DecidableEq, Repr

-- A leaf certificate with its key pair is made by the certificate library.
structure ServerConfig (Leaf : Type) where
  names : List String
  leaf : Leaf
  alpnProtocols : List (List UInt8)
  deriving DecidableEq

structure LeafCache (Leaf : Type) where
  capacity : Nat
  entries : Std.HashMap LeafCacheKey (ServerConfig Leaf)
  recency : List LeafCacheKey

variable {Leaf : Type}

namespace LeafCache

def new (capacity : Nat) : LeafCache Leaf := ⟨capacity,∅,[]⟩

def get (cache : LeafCache Leaf) (key : LeafCacheKey) : Option (ServerConfig Leaf) × LeafCache Leaf :=
  match cache.entries[key]? with
  | none => (none,cache)
  | some config => (some config,{cache with recency := cache.recency.filter (· != key) ++ [key]})

-- The entry that was used least recently makes room.
def evict (cache : LeafCache Leaf) : LeafCache Leaf :=
  if cache.entries.size = cache.capacity then
    match cache.recency with
    | [] => cache
    | oldest :: others => {cache with entries := cache.entries.erase oldest, recency := others}
  else cache

def insert (cache : LeafCache Leaf) (key : LeafCacheKey) (value : ServerConfig Leaf) : LeafCache Leaf :=
  if cache.capacity = 0 then cache
  else
    let evicted := cache.evict
    {evicted with recency := evicted.recency ++ [key], entries := evicted.entries.insert key value}

end LeafCache

-- What generation makes of the key and the signed leaf.
def generateServerConfig (key : LeafCacheKey) (leaf : Leaf) : ServerConfig Leaf :=
  ⟨[key.host],leaf,key.alpn.elim [alpnHttp2,alpnHttp11] (fun alpn => [alpn])⟩

-- Where one call stands: before its first locked section, between the two, before the
-- second, and with its answer.
inductive Phase (Leaf : Type) where
  | lookup
  | generation
  | recheck (config : ServerConfig Leaf)
  | returned (answer : Except TlsError (ServerConfig Leaf × Bool))

structure AcceptorCall (Leaf : Type) where
  key : LeafCacheKey
  phase : Phase Leaf

-- The calls of all tasks with the cache they share. The keys for which a call found
-- or inserted a configuration are kept in the order of the locked sections.
structure Interceptor (Leaf : Type) where
  cache : LeafCache Leaf
  calls : List (AcceptorCall Leaf)
  completed : List LeafCacheKey

namespace Interceptor

def new (capacity : Nat) : Interceptor Leaf := ⟨.new capacity,[],[]⟩

inductive Action (Leaf : Type) where
  | call (host : TargetHost) (negotiatedAlpn : Option (List UInt8))
  | lookup (call : Nat)
  | generate (call : Nat) (made : Except TlsError Leaf)
  | recheck (call : Nat)

def move (state : Interceptor Leaf) (call : Nat) (key : LeafCacheKey) (phase : Phase Leaf) : Interceptor Leaf :=
  {state with calls := state.calls.set call ⟨key,phase⟩}

def complete (state : Interceptor Leaf) (call : Nat) (key : LeafCacheKey) (cache : LeafCache Leaf)
    (config : ServerConfig Leaf) (hit : Bool) : Interceptor Leaf :=
  ⟨cache,state.calls.set call ⟨key,.returned (.ok (config,hit))⟩,state.completed ++ [key]⟩

-- One task takes its next step; a call that is not there yet stays where it is.
def advance (state : Interceptor Leaf) : Action Leaf → Interceptor Leaf
  | .call host negotiatedAlpn =>
      {state with calls := state.calls ++ [⟨⟨host.asHostText,negotiatedAlpn⟩,.lookup⟩]}
  | .lookup call =>
      match state.calls[call]? with
      | some ⟨key,.lookup⟩ =>
          match state.cache.get key with
          | (some config,cache) => state.complete call key cache config true
          | (none,cache) => {state with cache := cache}.move call key .generation
      | _ => state
  | .generate call made =>
      match state.calls[call]? with
      | some ⟨key,.generation⟩ =>
          match made with
          | .error error => state.move call key (.returned (.error error))
          | .ok leaf => state.move call key (.recheck (generateServerConfig key leaf))
      | _ => state
  | .recheck call =>
      match state.calls[call]? with
      | some ⟨key,.recheck config⟩ =>
          match state.cache.get key with
          | (some existing,cache) => state.complete call key cache existing true
          | (none,cache) => state.complete call key (cache.insert key config) config false
      | _ => state

def run (capacity : Nat) (actions : List (Action Leaf)) : Interceptor Leaf :=
  actions.foldl advance (.new capacity)

end Interceptor

-- The cache after the keys of a history have been used: the queue is what is newest in
-- the history, and the entries are those of the queue, each made for its own key.
structure Kept (capacity : Nat) (history : List LeafCacheKey) (cache : LeafCache Leaf) : Prop where
  room : cache.capacity = capacity
  queue : cache.recency = newest capacity history
  keys : ∀ key, key ∈ cache.entries ↔ key ∈ cache.recency
  own : ∀ key config, cache.entries[key]? = some config → ∃ leaf, config = generateServerConfig key leaf

namespace Kept

variable {capacity : Nat} {history : List LeafCacheKey} {cache : LeafCache Leaf} {key : LeafCacheKey}

theorem new (capacity : Nat) : Kept capacity [] (LeafCache.new capacity : LeafCache Leaf) where
  room := rfl
  queue := by simp [newest,LeafCache.new]
  keys := by simp [LeafCache.new]
  own := by simp [LeafCache.new]

theorem nodup (kept : Kept capacity history cache) : cache.recency.Nodup :=
  kept.queue ▸ newest_nodup capacity history

theorem perm (kept : Kept capacity history cache) : cache.recency.Perm cache.entries.keys := by
  refine (List.perm_ext_iff_of_nodup kept.nodup Std.HashMap.nodup_keys).mpr ?_
  intro key
  rw [Std.HashMap.mem_keys,kept.keys]

theorem size (kept : Kept capacity history cache) : cache.entries.size = cache.recency.length := by
  rw [← Std.HashMap.length_keys]
  exact kept.perm.length_eq.symm

theorem size_newest (kept : Kept capacity history cache) : cache.entries.size = min capacity history.dedup.length := by
  rw [kept.size,kept.queue,newest_length]

theorem get_none (missed : cache.get key = (none,after)) : after = cache ∧ key ∉ cache.entries := by
  unfold LeafCache.get at missed
  split at missed
  · rename_i absent
    cases missed
    exact ⟨rfl,fun member => by simp [Std.HashMap.getElem?_eq_some_getElem member] at absent⟩
  · cases missed

theorem get_some (kept : Kept capacity history cache) (found : cache.get key = (some config,after)) :
    Kept capacity (history ++ [key]) after ∧ after.entries = cache.entries ∧ cache.entries[key]? = some config := by
  unfold LeafCache.get at found
  split at found
  · cases found
  · rename_i held
    cases found
    have inside : key ∈ cache.entries := Std.HashMap.mem_iff_isSome_getElem?.mpr (by rw [held]; rfl)
    have hit : key ∈ newest capacity history := kept.queue ▸ (kept.keys key).mp inside
    refine ⟨⟨kept.room,?_,?_,kept.own⟩,rfl,held⟩
    · rw [newest_hit hit,← kept.queue]
      rfl
    · intro other
      change other ∈ cache.entries ↔ other ∈ touch cache.recency key
      rw [mem_touch,kept.keys]
      constructor
      · exact .inr
      · rintro (rfl | member)
        · exact (kept.keys _).mp inside
        · exact member

theorem evict_recency (kept : Kept capacity history cache) (some : capacity ≠ 0) :
    cache.evict.recency = (if (newest capacity history).length = capacity then (newest capacity history).tail
      else newest capacity history) ∧
    (∀ other : LeafCacheKey, other ∈ cache.evict.entries ↔ other ∈ cache.evict.recency) ∧
    (∀ (other : LeafCacheKey) (config : ServerConfig Leaf), cache.evict.entries[other]? = .some config →
      cache.entries[other]? = .some config) := by
  unfold LeafCache.evict
  rw [kept.size,kept.room,kept.queue]
  split
  · rename_i full
    obtain ⟨oldest,others,cons⟩ := List.exists_cons_of_length_pos (by omega : 0 < (newest capacity history).length)
    have queue : cache.recency = oldest :: others := kept.queue.trans cons
    have apart : oldest ∉ others := (List.nodup_cons.mp (queue ▸ kept.nodup)).1
    rw [cons]
    refine ⟨rfl,?_,?_⟩
    · intro other
      change other ∈ cache.entries.erase oldest ↔ other ∈ others
      rw [Std.HashMap.mem_erase,kept.keys,queue,List.mem_cons]
      constructor
      · rintro ⟨different,same | member⟩
        · simp [same] at different
        · exact member
      · intro member
        refine ⟨?_,.inr member⟩
        rw [beq_eq_false_iff_ne]
        intro same
        exact apart (same ▸ member)
    · intro other config held
      change (cache.entries.erase oldest)[other]? = .some config at held
      rw [Std.HashMap.getElem?_erase] at held
      split at held
      · cases held
      · exact held
  · exact ⟨kept.queue,kept.keys,fun _ _ held => held⟩

theorem evict_capacity (cache : LeafCache Leaf) : cache.evict.capacity = cache.capacity := by
  unfold LeafCache.evict
  split
  · split <;> rfl
  · rfl

theorem insert (kept : Kept capacity history cache) (absent : key ∉ cache.entries) (leaf : Leaf) :
    Kept capacity (history ++ [key]) (cache.insert key (generateServerConfig key leaf)) := by
  have miss : key ∉ newest capacity history := by
    rw [← kept.queue,← kept.keys]
    exact absent
  have latest := newest_miss miss
  unfold LeafCache.insert
  rw [kept.room]
  split
  · rename_i none
    rw [if_pos none] at latest
    have old : newest capacity history = [] := by
      apply List.eq_nil_of_length_eq_zero
      rw [newest_length,none,Nat.zero_min]
    refine ⟨kept.room,?_,kept.keys,kept.own⟩
    rw [kept.queue,latest,old]
  · rename_i some
    obtain ⟨queue,keys,values⟩ := kept.evict_recency some
    rw [if_neg some] at latest
    refine ⟨(evict_capacity cache).trans kept.room,?_,?_,?_⟩
    · change cache.evict.recency ++ [key] = _
      rw [queue,latest]
      split <;> rfl
    · intro other
      change other ∈ cache.evict.entries.insert key _ ↔ other ∈ cache.evict.recency ++ [key]
      rw [Std.HashMap.mem_insert,keys,List.mem_append,List.mem_singleton,beq_iff_eq,or_comm,eq_comm]
    · intro other config held
      change (cache.evict.entries.insert key _)[other]? = .some config at held
      rw [Std.HashMap.getElem?_insert] at held
      split at held
      · rename_i same
        cases held
        exact ⟨leaf,by rw [beq_iff_eq.mp same]⟩
      · exact kept.own other config (values other config held)

theorem insert_stable (kept : Kept capacity history cache) (absent : key ∉ cache.entries) (config : ServerConfig Leaf)
    {other : LeafCacheKey} {before after : ServerConfig Leaf} (held : cache.entries[other]? = some before)
    (still : (cache.insert key config).entries[other]? = some after) : after = before := by
  unfold LeafCache.insert at still
  rw [kept.room] at still
  split at still
  · rw [held] at still
    exact (Option.some.inj still).symm
  · rename_i room
    obtain ⟨_,_,values⟩ := kept.evict_recency room
    change (cache.evict.entries.insert key config)[other]? = some after at still
    rw [Std.HashMap.getElem?_insert] at still
    split at still
    · rename_i same
      rw [beq_iff_eq] at same
      subst same
      exact absurd (Std.HashMap.mem_iff_isSome_getElem?.mpr (by rw [held]; rfl)) absent
    · have earlier := values _ _ still
      rw [held] at earlier
      exact (Option.some.inj earlier).symm

end Kept

namespace Interceptor

-- A configuration that a call has made or returned is for the call's own key.
def OwnConfig (call : AcceptorCall Leaf) : Prop :=
  match call.phase with
  | .recheck config | .returned (.ok (config,_)) => ∃ leaf, config = generateServerConfig call.key leaf
  | _ => True

structure Sound (capacity : Nat) (state : Interceptor Leaf) : Prop where
  kept : Kept capacity state.completed state.cache
  calls : ∀ call ∈ state.calls, OwnConfig call

-- What one step may do: nothing to the cache, a hit, or an insertion after a miss.
inductive Effect (state : Interceptor Leaf) : LeafCache Leaf → List LeafCacheKey → Prop where
  | unchanged : Effect state state.cache state.completed
  | hit : state.cache.get key = (some config,after) → Effect state after (state.completed ++ [key])
  | inserted : key ∉ state.cache.entries →
      Effect state (state.cache.insert key (generateServerConfig key leaf)) (state.completed ++ [key])

variable {capacity : Nat} {state : Interceptor Leaf} {shared : LeafCache Leaf} {used : List LeafCacheKey}

theorem advance_effect (sound : Sound capacity state) (action : Action Leaf) :
    Effect state (state.advance action).cache (state.advance action).completed := by
  unfold advance
  split
  · exact .unchanged
  · split
    · rename_i key found
      split
      · rename_i hit
        exact .hit hit
      · rename_i missed
        rw [(Kept.get_none missed).1]
        exact .unchanged
    · exact .unchanged
  · split
    · split <;> exact .unchanged
    · exact .unchanged
  · split
    · rename_i key config found
      split
      · rename_i hit
        exact .hit hit
      · rename_i missed
        obtain ⟨leaf,made⟩ := sound.calls _ (List.mem_of_getElem? found)
        obtain ⟨same,absent⟩ := Kept.get_none missed
        rw [same]
        change config = generateServerConfig key leaf at made
        rw [made]
        exact .inserted absent
    · exact .unchanged

theorem Effect.kept (kept : Kept capacity state.completed state.cache) (effect : Effect state shared used) :
    Kept capacity used shared := by
  cases effect with
  | unchanged => exact kept
  | hit found => exact (kept.get_some found).1
  | inserted absent => exact kept.insert absent _

theorem Effect.stable (kept : Kept capacity state.completed state.cache) (effect : Effect state shared used)
    {key : LeafCacheKey} {before after : ServerConfig Leaf} (held : state.cache.entries[key]? = some before)
    (still : shared.entries[key]? = some after) : after = before := by
  cases effect with
  | unchanged =>
      rw [held] at still
      exact (Option.some.inj still).symm
  | hit found =>
      rw [(kept.get_some found).2.1,held] at still
      exact (Option.some.inj still).symm
  | inserted absent => exact kept.insert_stable absent _ held still

theorem set_own {calls : List (AcceptorCall Leaf)} (own : ∀ call ∈ calls, OwnConfig call) (position : Nat)
    (new : OwnConfig moved) : ∀ call ∈ calls.set position moved, OwnConfig call := by
  intro call member
  rcases List.mem_or_eq_of_mem_set member with old | rfl
  · exact own call old
  · exact new

theorem advance_calls (sound : Sound capacity state) (action : Action Leaf) :
    ∀ call ∈ (state.advance action).calls, OwnConfig call := by
  unfold advance
  split
  · intro call member
    rcases List.mem_append.mp member with old | added
    · exact sound.calls call old
    · rw [List.mem_singleton.mp added]
      exact trivial
  · split
    · split
      · rename_i hit
        exact set_own sound.calls _ (sound.kept.own _ _ (sound.kept.get_some hit).2.2)
      · exact set_own sound.calls _ trivial
    · exact sound.calls
  · split
    · split
      · exact set_own sound.calls _ trivial
      · exact set_own sound.calls _ ⟨_,rfl⟩
    · exact sound.calls
  · split
    · rename_i found
      split
      · rename_i hit
        exact set_own sound.calls _ (sound.kept.own _ _ (sound.kept.get_some hit).2.2)
      · have made := sound.calls _ (List.mem_of_getElem? found)
        exact set_own sound.calls _ made
    · exact sound.calls

theorem advance_sound (sound : Sound capacity state) (action : Action Leaf) : Sound capacity (state.advance action) :=
  ⟨(advance_effect sound action).kept sound.kept,advance_calls sound action⟩

theorem run_sound (capacity : Nat) (actions : List (Action Leaf)) : Sound capacity (run capacity actions) := by
  have start : Sound capacity (new capacity : Interceptor Leaf) := ⟨Kept.new capacity,by simp [new]⟩
  have kept : ∀ (state : Interceptor Leaf) (action : Action Leaf), Sound capacity state →
      Sound capacity (state.advance action) := fun _ action sound => advance_sound sound action
  exact Runs.run_invariant kept start actions

theorem run_answers (capacity : Nat) (actions : List (Action Leaf)) (call : AcceptorCall Leaf)
    (member : call ∈ (run capacity actions).calls) (returned : call.phase = .returned (.ok (config,hit))) :
    config.names = [call.key.host] ∧
      config.alpnProtocols = call.key.alpn.elim [alpnHttp2,alpnHttp11] (fun alpn => [alpn]) := by
  have own := (run_sound capacity actions).calls call member
  unfold OwnConfig at own
  rw [returned] at own
  obtain ⟨leaf,made⟩ := own
  rw [made]
  exact ⟨rfl,rfl⟩

-- In every interleaving the cache is a bounded cache of the most recently used keys,
-- and no step replaces a configuration that stays cached.
theorem leaf_cache_bounded_lru (capacity : Nat) (actions : List (Action Leaf)) :
    let state := run capacity actions
    (state.cache.recency.Nodup ∧ state.cache.recency.Perm state.cache.entries.keys) ∧
      state.cache.entries.size ≤ capacity ∧
      ((∀ key, key ∈ state.cache.entries ↔ key ∈ newest capacity state.completed) ∧
        state.cache.entries.size = min capacity state.completed.dedup.length) ∧
      ∀ (action : Action Leaf) (key : LeafCacheKey) (before after : ServerConfig Leaf),
        state.cache.entries[key]? = some before → (state.advance action).cache.entries[key]? = some after →
        after = before := by
  intro state
  have sound : Sound capacity state := run_sound capacity actions
  have size := sound.kept.size_newest
  refine ⟨⟨sound.kept.nodup,sound.kept.perm⟩,by omega,⟨?_,size⟩,?_⟩
  · intro key
    rw [sound.kept.keys,sound.kept.queue]
  · intro action key before after held still
    exact (advance_effect sound action).stable sound.kept held still

end Interceptor

end Freja.Tls
