import Mathlib
import SoaHomework.Binary64
import SoaHomework.ExpiringCell

/-!
# The keys of the flight service's cache

The two Lua scripts of `internal/cache/cache.go` on a Redis whose keys expire,
with the texts that Redis holds and the doubles that Lua compares. On the keys of
one flight or of one search the cache is a versioned cell (`Represents`), which
never goes backwards.
-/

namespace SoaHomework.CachedVersions

open ExpiringCell Binary64

/-! ## Redis -/

/-- The keys with their texts and the times in milliseconds at which they expire. -/
abbrev Redis := String → Option (Entry String)

inductive Reply where
  | integer (n : Int)
  | error
deriving DecidableEq, Repr

namespace Redis

def get (redis : Redis) (key : String) (now : Int) : Option String := read now (redis key)

/-- `SET key value PX ttlMs`, which fails unless `ttlMs` is positive. -/
def set (redis : Redis) (key value : String) (ttlMs now : Int) : Option Redis :=
  if 0 < ttlMs then some (Function.update redis key (some ⟨value, now + ttlMs⟩)) else none

def del (redis : Redis) (key : String) (now : Int) : Reply × Redis :=
  (.integer (if (redis.get key now).isSome then 1 else 0), Function.update redis key none)

end Redis

/-! ## The scripts -/

/-- `tonumber` of an integer in decimal -/
def tonumber (text : String) : Option ℚ := text.toInt?.map fun n : Int => double n

/-- `(not current) or (tonumber(argument) >= tonumber(current))`. The comparison of
    what is no number is an error. -/
def newer (argument : String) : Option String → Option Bool
  | none => some true
  | some current => do return decide ((← tonumber current) ≤ (← tonumber argument))

def setIfNewerScript (key verKey version payload : String) (ttlMs now : Int) (redis : Redis) :
    Reply × Redis :=
  match newer version (redis.get verKey now) with
  | none => (.error, redis)
  | some false => (.integer 0, redis)
  | some true =>
      match redis.set key payload ttlMs now with
      | none => (.error, redis)
      | some stored =>
          match stored.set verKey version ttlMs now with
          | none => (.error, stored)
          | some stored => (.integer 1, stored)

def setVersionIfNewerScript (verKey version : String) (ttlMs now : Int) (redis : Redis) :
    Reply × Redis :=
  match newer version (redis.get verKey now) with
  | none => (.error, redis)
  | some false => (.integer 0, redis)
  | some true =>
      match redis.set verKey version ttlMs now with
      | none => (.error, redis)
      | some stored => (.integer 1, stored)

/-! ## The methods -/

inductive RedisCommand where
  | setIfNewer (key verKey version payload : String) (ttlMs : Int)
  | setVersionIfNewer (verKey version : String) (ttlMs : Int)
  | del (key : String)
deriving DecidableEq, Repr

def RedisCommand.execute (now : Int) (redis : Redis) : RedisCommand → Reply × Redis
  | .setIfNewer key verKey version payload ttlMs =>
      setIfNewerScript key verKey version payload ttlMs now redis
  | .setVersionIfNewer verKey version ttlMs =>
      setVersionIfNewerScript verKey version ttlMs now redis
  | .del key => redis.del key now

def flightKey (id : String) : String := "flight:" ++ id

def flightVersionKey (id : String) : String := "flight:" ++ id ++ ":version"

def searchKey (origin destination dateKey : String) : String :=
  "search:" ++ origin ++ ":" ++ destination ++ ":" ++ dateKey

def searchVersionKey (origin destination dateKey : String) : String :=
  "search:" ++ origin ++ ":" ++ destination ++ ":" ++ dateKey ++ ":version"

/-- `Milliseconds` of a duration in nanoseconds -/
def milliseconds (duration : Int) : Int := duration.tdiv 1000000

def setIfNewer (ttl : Int) (key verKey : String) (version : Int) (payload : String) :
    List RedisCommand :=
  [.setIfNewer key verKey version.repr payload (milliseconds ttl)]

def setVersionIfNewer (ttl : Int) (verKey : String) (version : Int) : List RedisCommand :=
  [.setVersionIfNewer verKey version.repr (milliseconds ttl)]

def setFlightIfNewer (ttl : Int) (id : String) (version : Int) (payload : String) :
    List RedisCommand :=
  setIfNewer ttl (flightKey id) (flightVersionKey id) version payload

def setSearchIfNewer (ttl : Int) (origin destination dateKey : String) (version : Int)
    (payload : String) : List RedisCommand :=
  setIfNewer ttl (searchKey origin destination dateKey)
    (searchVersionKey origin destination dateKey) version payload

def invalidateFlight (id : String) : List RedisCommand := [.del (flightKey id)]

def invalidateSearch (origin destination dateKey : String) : List RedisCommand :=
  [.del (searchKey origin destination dateKey), .del (searchKey origin destination "any")]

def setFlightVersion (ttl : Int) (id : String) (version : Int) : List RedisCommand :=
  setVersionIfNewer ttl (flightVersionKey id) version

def setSearchVersion (ttl : Int) (origin destination dateKey : String) (version : Int) :
    List RedisCommand :=
  setVersionIfNewer ttl (searchVersionKey origin destination dateKey) version

/-! ## Runs on one item -/

/-- An integer that a double holds exactly. -/
abbrev Version := { n : Int // |n| < 2 ^ 53 }

/-- What the cache keeps under a key. -/
inductive Item where
  | flight (id : String)
  | search (origin destination dateKey : String)

def Item.key : Item → String
  | .flight id => flightKey id
  | .search origin destination dateKey => searchKey origin destination dateKey

def Item.versionKey : Item → String
  | .flight id => flightVersionKey id
  | .search origin destination dateKey => searchVersionKey origin destination dateKey

inductive Call where
  | setIfNewer (version : Version) (payload : String)
  | setVersion (version : Version)
  | invalidate
deriving DecidableEq

def Call.offers : Call → Option Version
  | .setIfNewer version _ => some version
  | .setVersion version => some version
  | .invalidate => none

/-- The method that is called for an item. -/
def Call.commands (ttl : Int) : Item → Call → List RedisCommand
  | .flight id, .setIfNewer version payload => setFlightIfNewer ttl id version payload
  | .flight id, .setVersion version => setFlightVersion ttl id version
  | .flight id, .invalidate => invalidateFlight id
  | .search origin destination dateKey, .setIfNewer version payload =>
      setSearchIfNewer ttl origin destination dateKey version payload
  | .search origin destination dateKey, .setVersion version =>
      setSearchVersion ttl origin destination dateKey version
  | .search origin destination dateKey, .invalidate =>
      invalidateSearch origin destination dateKey

/-- A command at the instant at which Redis executes it, with the call that sent it. -/
structure Sent (ttl : Int) (item : Item) where
  time : Int
  call : Call
  command : RedisCommand
  sends : command ∈ call.commands ttl item

variable {ttl : Int} {item : Item}

/-- What a command stores under the key of the item, if it does. -/
def Sent.stores (e : Sent ttl item) (redis : Redis) : Option (Version × String) :=
  match e.call with
  | .setIfNewer version payload =>
      if (e.command.execute e.time redis).1 = .integer 1 then some (version, payload) else none
  | _ => none

/-- Redis, and with which version the payload of the item was stored. -/
structure State where
  redis : Redis
  stored : Option (Version × String)

def State.step (s : State) (e : Sent ttl item) : State where
  redis := (e.command.execute e.time s.redis).2
  stored := match e.stores s.redis with
    | some stored => some stored
    | none => if e.command = .del item.key then none else s.stored

def run (events : List (Sent ttl item)) : State := events.foldl State.step ⟨fun _ => none, none⟩

def Offers (events : List (Sent ttl item)) (version : Version) : Prop :=
  ∃ e ∈ events, e.call.offers = some version

/-- From the first offer on the version is live whenever the next command comes,
    or at the end the time `now`. -/
def Unexpired (now : Int) (events : List (Sent ttl item)) : Prop :=
  ∀ before after, events = before ++ after → (∃ version, Offers before version) →
    (run before).redis.get item.versionKey ((after.head?.map Sent.time).getD now) ≠ none

/-! ## Texts and keys -/

theorem tonumber_repr (v : Version) : tonumber v.val.repr = some (v.val : ℚ) := by
  rw [tonumber, Int.toInt?_repr, Option.map_some, double_intCast v.property]

theorem newer_repr (v w : Version) :
    newer v.val.repr (some w.val.repr) = some (decide (w ≤ v)) := by
  have hcast : ((w.val : ℚ) ≤ v.val) ↔ w ≤ v := Int.cast_le
  simp only [newer, tonumber_repr, Option.pure_def, Option.bind_eq_bind, Option.bind_some, hcast]

theorem ne_of_length {s t : String} (h : s.length ≠ t.length) : s ≠ t := by
  rintro rfl
  exact h rfl

theorem key_ne_versionKey (item : Item) : item.key ≠ item.versionKey := by
  apply ne_of_length
  cases item with
  | flight id => simp [Item.key, Item.versionKey, flightKey, flightVersionKey]
  | search origin destination dateKey =>
      simp [Item.key, Item.versionKey, searchKey, searchVersionKey]

theorem anyKey_ne_versionKey (origin destination dateKey : String) :
    searchKey origin destination "any" ≠ searchVersionKey origin destination dateKey := by
  apply ne_of_length
  have hany : "any".length = 3 := rfl
  have hsuffix : ":version".length = 8 := rfl
  simp only [searchKey, searchVersionKey, String.length_append, hany, hsuffix]
  omega

/-! ## The commands of the calls -/

theorem command_setIfNewer {e : Sent ttl item} {version : Version} {payload : String}
    (h : e.call = .setIfNewer version payload) :
    e.command = .setIfNewer item.key item.versionKey version.val.repr payload
      (milliseconds ttl) := by
  have hsends := e.sends
  rw [h] at hsends
  cases item with
  | flight id => exact List.mem_singleton.mp hsends
  | search origin destination dateKey => exact List.mem_singleton.mp hsends

theorem command_setVersion {e : Sent ttl item} {version : Version}
    (h : e.call = .setVersion version) :
    e.command = .setVersionIfNewer item.versionKey version.val.repr (milliseconds ttl) := by
  have hsends := e.sends
  rw [h] at hsends
  cases item with
  | flight id => exact List.mem_singleton.mp hsends
  | search origin destination dateKey => exact List.mem_singleton.mp hsends

theorem command_invalidate {e : Sent ttl item} (h : e.call = .invalidate) :
    ∃ key, e.command = .del key ∧ key ≠ item.versionKey := by
  have hsends := e.sends
  rw [h] at hsends
  cases item with
  | flight id => exact ⟨_, List.mem_singleton.mp hsends, key_ne_versionKey (.flight id)⟩
  | search origin destination dateKey =>
      rcases List.mem_pair.mp hsends with hkey | hany
      · exact ⟨_, hkey, key_ne_versionKey (.search origin destination dateKey)⟩
      · exact ⟨_, hany, anyKey_ne_versionKey origin destination dateKey⟩

/-- What a command does to the cell of its item. -/
def Sent.meaning (e : Sent ttl item) : ExpiringCell.Command Version String :=
  match e.call with
  | .setIfNewer version payload => .store version payload
  | .setVersion version => .announce version
  | .invalidate => if e.command = .del item.key then .delete else .elsewhere

structure Represents (item : Item) (s : State) (c : Cell Version String) : Prop where
  payload : s.redis item.key = c.payload.map fun e => ⟨e.value.2, e.expires⟩
  version : s.redis item.versionKey = c.version.map fun e => ⟨e.value.val.repr, e.expires⟩
  stored : s.stored = c.payload.map Entry.value

variable {s : State} {c : Cell Version String}

theorem Represents.get_version (h : Represents item s c) (now : Int) :
    s.redis.get item.versionKey now = (read now c.version).map fun v => v.val.repr := by
  rw [Redis.get, h.version]
  exact read_map (fun v : Version => v.val.repr) now c.version

/-- The scripts compare as the guard of the cell does. -/
theorem Represents.newer (h : Represents item s c) (version : Version) (now : Int) :
    newer version.val.repr (s.redis.get item.versionKey now) = some (c.admits now version) := by
  rw [h.get_version, Cell.admits]
  cases read now c.version with
  | none => rfl
  | some current => exact newer_repr version current

theorem Represents.setIfNewer_stores (h : Represents item s c) {version : Version} {now ttlMs : Int}
    (hguard : 0 < ttlMs ∧ c.admits now version = true) (payload : String) :
    setIfNewerScript item.key item.versionKey version.val.repr payload ttlMs now s.redis =
      (.integer 1, Function.update
        (Function.update s.redis item.key (some ⟨payload, now + ttlMs⟩))
        item.versionKey (some ⟨version.val.repr, now + ttlMs⟩)) := by
  simp only [setIfNewerScript, h.newer, hguard.right, Redis.set, if_pos hguard.left]

theorem Represents.setIfNewer_keeps (h : Represents item s c) {version : Version} {now ttlMs : Int}
    (hguard : ¬ (0 < ttlMs ∧ c.admits now version = true)) (payload : String) :
    ∃ reply, setIfNewerScript item.key item.versionKey version.val.repr payload ttlMs now s.redis =
      (reply, s.redis) ∧ reply ≠ .integer 1 := by
  simp only [setIfNewerScript, h.newer]
  cases hadmits : c.admits now version with
  | false => exact ⟨_, rfl, nofun⟩
  | true =>
      have httl : ¬ 0 < ttlMs := fun httl => hguard ⟨httl, hadmits⟩
      simp only [Redis.set, if_neg httl]
      exact ⟨_, rfl, nofun⟩

theorem Represents.setVersionIfNewer_stores (h : Represents item s c) {version : Version}
    {now ttlMs : Int} (hguard : 0 < ttlMs ∧ c.admits now version = true) :
    setVersionIfNewerScript item.versionKey version.val.repr ttlMs now s.redis =
      (.integer 1, Function.update s.redis item.versionKey
        (some ⟨version.val.repr, now + ttlMs⟩)) := by
  simp only [setVersionIfNewerScript, h.newer, hguard.right, Redis.set, if_pos hguard.left]

theorem Represents.setVersionIfNewer_keeps (h : Represents item s c) {version : Version}
    {now ttlMs : Int} (hguard : ¬ (0 < ttlMs ∧ c.admits now version = true)) :
    (setVersionIfNewerScript item.versionKey version.val.repr ttlMs now s.redis).2 = s.redis := by
  simp only [setVersionIfNewerScript, h.newer]
  cases hadmits : c.admits now version with
  | false => rfl
  | true =>
      have httl : ¬ 0 < ttlMs := fun httl => hguard ⟨httl, hadmits⟩
      simp only [Redis.set, if_neg httl]

section Commands

variable {e : Sent ttl item} {version : Version}

theorem Represents.step_setIfNewer (h : Represents item s c) {payload : String}
    (hcall : e.call = .setIfNewer version payload) :
    Represents item (s.step e) (c.perform (milliseconds ttl) e.time e.meaning) := by
  have hmeaning : e.meaning = .store version payload := by rw [Sent.meaning, hcall]
  have hcommand := command_setIfNewer hcall
  rw [hmeaning, Cell.perform]
  by_cases hguard : 0 < milliseconds ttl ∧ c.admits e.time version = true
  · have hexecute := h.setIfNewer_stores hguard payload
    have hstores : e.stores s.redis = some (version, payload) := by
      simp only [Sent.stores, hcall, hcommand, RedisCommand.execute, hexecute, if_true]
    rw [if_pos hguard]
    constructor
    · simp only [State.step, hcommand, RedisCommand.execute, hexecute,
        Function.update_of_ne (key_ne_versionKey item), Function.update_self, Option.map_some]
    · simp only [State.step, hcommand, RedisCommand.execute, hexecute, Function.update_self,
        Option.map_some]
    · simp only [State.step, hstores, Option.map_some]
  · obtain ⟨reply, hexecute, hreply⟩ := h.setIfNewer_keeps hguard payload
    have hstores : e.stores s.redis = none := by
      simp only [Sent.stores, hcall, hcommand, RedisCommand.execute, hexecute, if_neg hreply]
    have hdel : e.command ≠ .del item.key := by
      simp [hcommand]
    rw [if_neg hguard]
    constructor
    · simp only [State.step, hcommand, RedisCommand.execute, hexecute, h.payload]
    · simp only [State.step, hcommand, RedisCommand.execute, hexecute, h.version]
    · simp only [State.step, hstores, if_neg hdel, h.stored]

theorem Represents.step_setVersion (h : Represents item s c)
    (hcall : e.call = .setVersion version) :
    Represents item (s.step e) (c.perform (milliseconds ttl) e.time e.meaning) := by
  have hmeaning : e.meaning = .announce version := by rw [Sent.meaning, hcall]
  have hcommand := command_setVersion hcall
  have hdel : e.command ≠ .del item.key := by
    simp [hcommand]
  have hstores : e.stores s.redis = none := by rw [Sent.stores, hcall]
  rw [hmeaning, Cell.perform]
  by_cases hguard : 0 < milliseconds ttl ∧ c.admits e.time version = true
  · have hexecute := h.setVersionIfNewer_stores hguard
    rw [if_pos hguard]
    constructor
    · simp only [State.step, hcommand, RedisCommand.execute, hexecute,
        Function.update_of_ne (key_ne_versionKey item), h.payload]
    · simp only [State.step, hcommand, RedisCommand.execute, hexecute, Function.update_self,
        Option.map_some]
    · simp only [State.step, hstores, if_neg hdel, h.stored]
  · have hexecute := h.setVersionIfNewer_keeps hguard
    rw [if_neg hguard]
    constructor
    · simp only [State.step, hcommand, RedisCommand.execute, hexecute, h.payload]
    · simp only [State.step, hcommand, RedisCommand.execute, hexecute, h.version]
    · simp only [State.step, hstores, if_neg hdel, h.stored]

theorem Represents.step_invalidate (h : Represents item s c) (hcall : e.call = .invalidate) :
    Represents item (s.step e) (c.perform (milliseconds ttl) e.time e.meaning) := by
  obtain ⟨key, hcommand, hversion⟩ := command_invalidate hcall
  have hstores : e.stores s.redis = none := by rw [Sent.stores, hcall]
  have hredis : (e.command.execute e.time s.redis).2 = Function.update s.redis key none := by
    rw [hcommand]
    rfl
  by_cases hkey : key = item.key
  · subst hkey
    have hmeaning : e.meaning = .delete := by rw [Sent.meaning, hcall, if_pos hcommand]
    rw [hmeaning]
    constructor
    · simp only [State.step, hredis, Function.update_self, Cell.perform, Option.map_none]
    · simp only [State.step, hredis, Function.update_of_ne hversion.symm, Cell.perform, h.version]
    · simp only [State.step, hstores, if_pos hcommand, Cell.perform, Option.map_none]
  · have hdel : e.command ≠ .del item.key := by
      rw [hcommand]
      exact fun heq => hkey (RedisCommand.del.inj heq)
    have hmeaning : e.meaning = .elsewhere := by rw [Sent.meaning, hcall, if_neg hdel]
    rw [hmeaning]
    constructor
    · simp only [State.step, hredis, Function.update_of_ne (Ne.symm hkey), Cell.perform, h.payload]
    · simp only [State.step, hredis, Function.update_of_ne hversion.symm, Cell.perform, h.version]
    · simp only [State.step, hstores, if_neg hdel, Cell.perform, h.stored]

theorem Represents.step (h : Represents item s c) (e : Sent ttl item) :
    Represents item (s.step e) (c.perform (milliseconds ttl) e.time e.meaning) := by
  cases hcall : e.call with
  | setIfNewer version payload => exact h.step_setIfNewer hcall
  | setVersion version => exact h.step_setVersion hcall
  | invalidate => exact h.step_invalidate hcall

end Commands

section Meanings

variable {events : List (Sent ttl item)} {now : Int}

end Meanings

end SoaHomework.CachedVersions
