import Mathlib.Data.List.Basic

/-!
# JSON as Python reads it

`json.loads` on a text, with the exceptions that it raises: `JSONDecodeError`,
the `ValueError` for an integer with too many digits and the `RecursionError`
for containers nested too deep. A text is cut into tokens, which are read from
left to right with a stack of the open containers, so the first thing wrong
decides the exception.

The strings of a value are of any type `α`: the reader does not look into them.
What it makes of a text is therefore natural in them (`loadTokens_map`).
-/

namespace SoaHomework.PythonJson

/-- The code points of a `str`, unpaired surrogates among them. -/
abbrev Text := List Nat

/-! ## Values -/

mutual

/-- Numbers are kept as they are written, `NaN` and `Infinity` among the floats. -/
inductive Value (α : Type) where
  | null
  | bool (b : Bool)
  | int (literal : List Char)
  | float (literal : List Char)
  | str (s : α)
  | list (items : Values α)
  | dict (members : Members α)

inductive Values (α : Type) where
  | nil
  | cons (value : Value α) (values : Values α)

inductive Members (α : Type) where
  | nil
  | cons (key : Text) (value : Value α) (members : Members α)

end

deriving instance DecidableEq for Value, Values, Members

section Values

variable {α β : Type}

mutual

def Value.map (f : α → β) : Value α → Value β
  | .null => .null
  | .bool b => .bool b
  | .int literal => .int literal
  | .float literal => .float literal
  | .str s => .str (f s)
  | .list items => .list (Values.map f items)
  | .dict members => .dict (Members.map f members)

def Values.map (f : α → β) : Values α → Values β
  | .nil => .nil
  | .cons value values => .cons (Value.map f value) (Values.map f values)

def Members.map (f : α → β) : Members α → Members β
  | .nil => .nil
  | .cons key value members => .cons key (Value.map f value) (Members.map f members)

end

/-- `values.append(value)` -/
def Values.append (value : Value α) : Values α → Values α
  | .nil => .cons value .nil
  | .cons first values => .cons first (Values.append value values)

/-- `members[key] = value`: a key keeps its place. -/
def Members.set (key : Text) (value : Value α) : Members α → Members α
  | .nil => .cons key value .nil
  | .cons k v members =>
      if k = key then .cons k value members else .cons k v (Members.set key value members)

def Members.has (key : Text) : Members α → Bool
  | .nil => false
  | .cons k _ members => decide (k = key) || Members.has key members

mutual

/-- The nesting of containers. -/
def Value.depth : Value α → Nat
  | .list items => Values.depth items + 1
  | .dict members => Members.depth members + 1
  | _ => 0

def Values.depth : Values α → Nat
  | .nil => 0
  | .cons value values => max (Value.depth value) (Values.depth values)

def Members.depth : Members α → Nat
  | .nil => 0
  | .cons _ value members => max (Value.depth value) (Members.depth members)

end

mutual

/-- Every key and every string meets a condition. -/
def Value.all (key : Text → Bool) (str : α → Bool) : Value α → Bool
  | .str s => str s
  | .list items => Values.all key str items
  | .dict members => Members.all key str members
  | _ => true

def Values.all (key : Text → Bool) (str : α → Bool) : Values α → Bool
  | .nil => true
  | .cons value values => Value.all key str value && Values.all key str values

def Members.all (key : Text → Bool) (str : α → Bool) : Members α → Bool
  | .nil => true
  | .cons k value members => key k && Value.all key str value && Members.all key str members

end

theorem Values.map_append (f : α → β) (value : Value α) : ∀ values : Values α,
    (Values.append value values).map f = Values.append (value.map f) (values.map f)
  | .nil => rfl
  | .cons first values => by
      simp only [Values.append, Values.map, Values.map_append f value values]

theorem Members.map_set (f : α → β) (key : Text) (value : Value α) : ∀ members : Members α,
    (members.set key value).map f = (members.map f).set key (value.map f)
  | .nil => rfl
  | .cons k v members => by
      by_cases hk : k = key
      · simp only [Members.set, Members.map, if_pos hk]
      · simp only [Members.set, Members.map, if_neg hk, Members.map_set f key value members]

theorem Members.has_map (f : α → β) (key : Text) : ∀ members : Members α,
    (members.map f).has key = members.has key
  | .nil => rfl
  | .cons k v members => by
      simp only [Members.has, Members.map, Members.has_map f key members]

section Agree

variable [DecidableEq β]

/-- The strings on which two functions agree. -/
def agree (f g : α → β) (s : α) : Bool := decide (f s = g s)

mutual

/-- Two functions make the same value if they agree on its strings. -/
theorem Value.map_eq_map (f g : α → β) : ∀ value : Value α,
    value.map f = value.map g ↔ value.all (fun _ => true) (agree f g) = true
  | .list items => by
      simp only [Value.map, Value.all, Value.list.injEq, Values.map_eq_map f g items]
  | .dict members => by
      simp only [Value.map, Value.all, Value.dict.injEq, Members.map_eq_map f g members]
  | .str s => by simp only [Value.map, Value.all, Value.str.injEq, agree, decide_eq_true_eq]
  | .null | .bool _ | .int _ | .float _ => ⟨fun _ => rfl, fun _ => rfl⟩

theorem Values.map_eq_map (f g : α → β) : ∀ values : Values α,
    values.map f = values.map g ↔ values.all (fun _ => true) (agree f g) = true
  | .nil => ⟨fun _ => rfl, fun _ => rfl⟩
  | .cons value values => by
      simp only [Values.map, Values.all, Values.cons.injEq, Bool.and_eq_true,
        Value.map_eq_map f g value, Values.map_eq_map f g values]

theorem Members.map_eq_map (f g : α → β) : ∀ members : Members α,
    members.map f = members.map g ↔ members.all (fun _ => true) (agree f g) = true
  | .nil => ⟨fun _ => rfl, fun _ => rfl⟩
  | .cons key value members => by
      simp only [Members.map, Members.all, Members.cons.injEq, Bool.and_eq_true, true_and,
        Value.map_eq_map f g value, Members.map_eq_map f g members]

end

end Agree

end Values

/-! ## Tokens -/

/-- A string token has its text, should it be a key, and its string, should it be
    a value. -/
inductive Token (α : Type) where
  | openObject
  | closeObject
  | openArray
  | closeArray
  | colon
  | comma
  | null
  | bool (b : Bool)
  | int (literal : List Char)
  | float (literal : List Char)
  | str (key : Text) (s : α)
  | bad
deriving DecidableEq

def Token.map {α β : Type} (f : α → β) : Token α → Token β
  | .openObject => .openObject
  | .closeObject => .closeObject
  | .openArray => .openArray
  | .closeArray => .closeArray
  | .colon => .colon
  | .comma => .comma
  | .null => .null
  | .bool b => .bool b
  | .int literal => .int literal
  | .float literal => .float literal
  | .str key s => .str key (f s)
  | .bad => .bad

def isSpace (c : Char) : Bool := c == ' ' || c == '\t' || c == '\n' || c == '\r'

def hexDigit (c : Char) : Option Nat :=
  if '0' ≤ c ∧ c ≤ '9' then some (c.toNat - '0'.toNat)
  else if 'a' ≤ c ∧ c ≤ 'f' then some (c.toNat - 'a'.toNat + 10)
  else if 'A' ≤ c ∧ c ≤ 'F' then some (c.toNat - 'A'.toNat + 10)
  else none

def hexNumber (digits : List Char) : Option Nat :=
  digits.foldlM (fun n c => (hexDigit c).map fun digit => 16 * n + digit) 0

/-- The character that follows a backslash. -/
def escaped : Char → Option Nat
  | '"' => some 34
  | '\\' => some 92
  | '/' => some 47
  | 'b' => some 8
  | 'f' => some 12
  | 'n' => some 10
  | 'r' => some 13
  | 't' => some 9
  | _ => none

/-- The rest of a string after its opening quote, without control characters. -/
def scanString : List Char → Option (Text × List Char)
  | '"' :: rest => some ([], rest)
  | '\\' :: 'u' :: a :: b :: c :: d :: rest =>
      (hexNumber [a, b, c, d]).bind fun unit =>
        (scanString rest).map fun (units, rest) => (unit :: units, rest)
  | '\\' :: c :: rest =>
      (escaped c).bind fun unit =>
        (scanString rest).map fun (units, rest) => (unit :: units, rest)
  | c :: rest =>
      if c.toNat < 32 then none
      else (scanString rest).map fun (units, rest) => (c.toNat :: units, rest)
  | [] => none

/-- A high surrogate and a low one next to it are one code point. -/
def joinSurrogates : List Nat → Text
  | high :: low :: rest =>
      if 0xD800 ≤ high ∧ high < 0xDC00 ∧ 0xDC00 ≤ low ∧ low < 0xE000 then
        (0x10000 + (high - 0xD800) * 0x400 + (low - 0xDC00)) :: joinSurrogates rest
      else high :: joinSurrogates (low :: rest)
  | units => units

/-- `0`, or digits that do not begin with it. -/
def scanInteger : List Char → Option (List Char × List Char)
  | '0' :: rest => some (['0'], rest)
  | cs =>
      match cs.span Char.isDigit with
      | ([], _) => none
      | digits => some digits

def scanFraction : List Char → List Char × List Char
  | '.' :: rest =>
      match rest.span Char.isDigit with
      | ([], _) => ([], '.' :: rest)
      | (digits, rest) => ('.' :: digits, rest)
  | cs => ([], cs)

def scanExponent : List Char → List Char × List Char
  | e :: rest =>
      if e = 'e' ∨ e = 'E' then
        let (sign, digits) := rest.span fun c => c == '+' || c == '-'
        match digits.span Char.isDigit with
        | ([], _) => ([], e :: rest)
        | (digits, rest') =>
            if sign.length ≤ 1 then (e :: sign ++ digits, rest') else ([], e :: rest)
      else ([], e :: rest)
  | [] => ([], [])

def scanNumber (cs : List Char) : Option (Token Text × List Char) :=
  let (sign, unsigned) := match cs with
    | '-' :: rest => (['-'], rest)
    | _ => ([], cs)
  (scanInteger unsigned).map fun (integer, rest) =>
    let (fraction, rest) := scanFraction rest
    let (exponent, rest) := scanExponent rest
    if fraction = [] ∧ exponent = [] then (.int (sign ++ integer), rest)
    else (.float (sign ++ integer ++ fraction ++ exponent), rest)

def names : List (List Char × Token Text) :=
  [("null".toList, .null), ("true".toList, .bool true), ("false".toList, .bool false),
    ("NaN".toList, .float "NaN".toList), ("Infinity".toList, .float "Infinity".toList),
    ("-Infinity".toList, .float "-Infinity".toList)]

def scanName (cs : List Char) : Option (Token Text × List Char) :=
  names.findSome? fun (name, token) =>
    if name.isPrefixOf cs then some (token, cs.drop name.length) else none

def scanToken : List Char → Option (Token Text × List Char)
  | '\x7b' :: rest => some (.openObject, rest)
  | '\x7d' :: rest => some (.closeObject, rest)
  | '[' :: rest => some (.openArray, rest)
  | ']' :: rest => some (.closeArray, rest)
  | ':' :: rest => some (.colon, rest)
  | ',' :: rest => some (.comma, rest)
  | '"' :: rest =>
      (scanString rest).map fun (units, rest) =>
        (.str (joinSurrogates units) (joinSurrogates units), rest)
  | cs => (scanName cs).or (scanNumber cs)

/-- The tokens of a text. A character that begins none is a token that nothing
    accepts. -/
def tokensOf : Nat → List Char → List (Token Text)
  | 0, _ => []
  | _, [] => []
  | fuel + 1, c :: cs =>
      if isSpace c then tokensOf fuel cs
      else
        match scanToken (c :: cs) with
        | some (token, rest) => token :: tokensOf fuel rest
        | none => .bad :: tokensOf fuel cs

def tokens (text : List Char) : List (Token Text) := tokensOf text.length text

/-! ## Reading -/

inductive LoadError where
  | jsonDecodeError
  | valueError
  | recursionError
deriving DecidableEq, Repr

/-- How deep containers may nest, and how many digits an integer may have. -/
structure Limits where
  depth : Nat
  digits : Nat

/-- A container that is open while one of its values is read. -/
inductive Frame (α : Type) where
  | list (items : Values α)
  | dict (members : Members α) (key : Text)

/-- What is expected next, below the open containers. -/
inductive State (α : Type) where
  /-- a value, or the end of an empty list if `first` -/
  | beforeValue (stack : List (Frame α)) (first : Bool)
  /-- a key, or the end of an empty dict if `first` -/
  | beforeKey (stack : List (Frame α)) (members : Members α) (first : Bool)
  | afterKey (stack : List (Frame α)) (members : Members α) (key : Text)
  /-- a comma or the end of a list -/
  | inList (stack : List (Frame α)) (items : Values α)
  /-- a comma or the end of a dict -/
  | inDict (stack : List (Frame α)) (members : Members α)
  | done (value : Value α)

section Reading

variable {α β : Type}

/-- A value has been read. -/
def complete (value : Value α) : List (Frame α) → State α
  | [] => .done value
  | .list items :: stack => .inList stack (items.append value)
  | .dict members key :: stack => .inDict stack (members.set key value)

def stepValue (limits : Limits) (stack : List (Frame α)) (first : Bool) :
    Token α → Except LoadError (State α)
  | .openObject =>
      if stack.length < limits.depth then .ok (.beforeKey stack .nil true)
      else .error .recursionError
  | .openArray =>
      if stack.length < limits.depth then .ok (.beforeValue (.list .nil :: stack) true)
      else .error .recursionError
  | .closeArray =>
      match first, stack with
      | true, .list items :: stack => .ok (complete (.list items) stack)
      | _, _ => .error .jsonDecodeError
  | .null => .ok (complete .null stack)
  | .bool b => .ok (complete (.bool b) stack)
  | .int literal =>
      if (literal.filter Char.isDigit).length ≤ limits.digits then
        .ok (complete (.int literal) stack)
      else .error .valueError
  | .float literal => .ok (complete (.float literal) stack)
  | .str _ s => .ok (complete (.str s) stack)
  | _ => .error .jsonDecodeError

def step (limits : Limits) : State α → Token α → Except LoadError (State α)
  | .beforeValue stack first, token => stepValue limits stack first token
  | .beforeKey stack members _, .str key _ => .ok (.afterKey stack members key)
  | .beforeKey stack members true, .closeObject => .ok (complete (.dict members) stack)
  | .afterKey stack members key, .colon => .ok (.beforeValue (.dict members key :: stack) false)
  | .inList stack items, .comma => .ok (.beforeValue (.list items :: stack) false)
  | .inList stack items, .closeArray => .ok (complete (.list items) stack)
  | .inDict stack members, .comma => .ok (.beforeKey stack members false)
  | .inDict stack members, .closeObject => .ok (complete (.dict members) stack)
  | _, _ => .error .jsonDecodeError

def run (limits : Limits) (state : State α) (tokens : List (Token α)) :
    Except LoadError (State α) :=
  tokens.foldlM (step limits) state

def finish : State α → Except LoadError (Value α)
  | .done value => .ok value
  | _ => .error .jsonDecodeError

def loadTokens (limits : Limits) (tokens : List (Token α)) : Except LoadError (Value α) :=
  (run limits (.beforeValue [] false) tokens).bind finish

/-- `json.loads(text)` -/
def loads (limits : Limits) (text : List Char) : Except LoadError (Value Text) :=
  loadTokens limits (tokens text)

/-! ## The reader does not look into strings -/

def Frame.map (f : α → β) : Frame α → Frame β
  | .list items => .list (items.map f)
  | .dict members key => .dict (members.map f) key

def State.map (f : α → β) : State α → State β
  | .beforeValue stack first => .beforeValue (stack.map (Frame.map f)) first
  | .beforeKey stack members first => .beforeKey (stack.map (Frame.map f)) (members.map f) first
  | .afterKey stack members key => .afterKey (stack.map (Frame.map f)) (members.map f) key
  | .inList stack items => .inList (stack.map (Frame.map f)) (items.map f)
  | .inDict stack members => .inDict (stack.map (Frame.map f)) (members.map f)
  | .done value => .done (value.map f)

theorem complete_map (f : α → β) (value : Value α) (stack : List (Frame α)) :
    complete (value.map f) (stack.map (Frame.map f)) = (complete value stack).map f := by
  rcases stack with _ | ⟨frame, stack⟩
  · rfl
  · cases frame with
    | list items => simp only [List.map_cons, Frame.map, complete, State.map, Values.map_append]
    | dict members key =>
        simp only [List.map_cons, Frame.map, complete, State.map, Members.map_set]

theorem stepValue_map (f : α → β) (limits : Limits) (stack : List (Frame α)) (first : Bool)
    (token : Token α) :
    stepValue limits (stack.map (Frame.map f)) first (token.map f) =
      (stepValue limits stack first token).map (State.map f) := by
  cases token with
  | openObject =>
      simp only [Token.map, stepValue, List.length_map]
      split <;> rfl
  | openArray =>
      simp only [Token.map, stepValue, List.length_map]
      split <;> rfl
  | closeArray =>
      rcases stack with _ | ⟨frame, stack⟩
      · cases first <;> rfl
      · cases first with
        | false => cases frame <;> rfl
        | true =>
            cases frame with
            | list items => exact congrArg Except.ok (complete_map f (.list items) stack)
            | dict members key => rfl
  | null => exact congrArg Except.ok (complete_map f .null stack)
  | bool b => exact congrArg Except.ok (complete_map f (.bool b) stack)
  | int literal =>
      simp only [Token.map, stepValue]
      split
      · exact congrArg Except.ok (complete_map f (.int literal) stack)
      · rfl
  | float literal => exact congrArg Except.ok (complete_map f (.float literal) stack)
  | str key s => exact congrArg Except.ok (complete_map f (.str s) stack)
  | _ => rfl

theorem step_map (f : α → β) (limits : Limits) (state : State α) (token : Token α) :
    step limits (state.map f) (token.map f) = (step limits state token).map (State.map f) := by
  cases state with
  | beforeValue stack first => exact stepValue_map f limits stack first token
  | beforeKey stack members first =>
      cases token with
      | closeObject =>
          cases first with
          | true => exact congrArg Except.ok (complete_map f (.dict members) stack)
          | false => rfl
      | _ => cases first <;> rfl
  | afterKey stack members key => cases token <;> rfl
  | inList stack items =>
      cases token with
      | closeArray => exact congrArg Except.ok (complete_map f (.list items) stack)
      | _ => rfl
  | inDict stack members =>
      cases token with
      | closeObject => exact congrArg Except.ok (complete_map f (.dict members) stack)
      | _ => rfl
  | done value => cases token <;> rfl

theorem run_cons (limits : Limits) (state : State α) (token : Token α) (tokens : List (Token α)) :
    run limits state (token :: tokens) =
      (step limits state token).bind fun state => run limits state tokens := rfl

theorem run_append (limits : Limits) (state : State α) (tokens tokens' : List (Token α)) :
    run limits state (tokens ++ tokens') =
      (run limits state tokens).bind fun state => run limits state tokens' := by
  rw [run, List.foldlM_append]
  rfl

theorem run_map (f : α → β) (limits : Limits) (state : State α) (tokens : List (Token α)) :
    run limits (state.map f) (tokens.map (Token.map f)) =
      (run limits state tokens).map (State.map f) := by
  induction tokens generalizing state with
  | nil => rfl
  | cons token tokens ih =>
      rw [List.map_cons, run_cons, run_cons, step_map]
      cases step limits state token with
      | error error => rfl
      | ok next => exact ih next

/-- Tokens with other strings are read as the value with the other strings. -/
theorem loadTokens_map (f : α → β) (limits : Limits) (tokens : List (Token α)) :
    loadTokens limits (tokens.map (Token.map f)) =
      (loadTokens limits tokens).map (Value.map f) := by
  have hrun := run_map f limits (.beforeValue [] false) tokens
  rw [loadTokens, loadTokens]
  change ((run limits ((State.beforeValue [] false : State α).map f)
    (tokens.map (Token.map f))).bind finish) = _
  rw [hrun]
  cases run limits (.beforeValue [] false) tokens with
  | error error => rfl
  | ok state => cases state <;> rfl

/-- A string after a colon is no key. -/
theorem run_colon (limits : Limits) (state : State α) (key key' : Text) (s : α)
    (tokens : List (Token α)) :
    run limits state (.colon :: .str key s :: tokens) =
      run limits state (.colon :: .str key' s :: tokens) := by
  rw [run_cons, run_cons]
  cases state with
  | beforeValue stack first => rfl
  | beforeKey stack members first => cases first <;> rfl
  | afterKey stack members key => rfl
  | inList stack items => rfl
  | inDict stack members => rfl
  | done value => rfl

end Reading

end SoaHomework.PythonJson
