import SoaHomework.PythonJson

/-!
# The log of the requests

`log_requests`, the middleware around every request of the marketplace. It
answers after the handler has, and reads the body again to log it, so what it
raises comes when the handler has already committed. The body is masked if it is
a JSON object, and logged as it came if it is no JSON.
-/

namespace SoaHomework.RequestLogging

open PythonJson

/-! ## The interpreter -/

/-- What the interpreter has for a request: the containers that may nest where
    the middleware calls `json`, and the code points that `stdout` encodes, which
    are those of all characters at least. -/
structure Runtime where
  recursion : Nat
  recursion_pos : 0 < recursion
  encodes : Nat → Bool
  encodes_char : ∀ c : Char, encodes c.toNat = true

/-- `sys.get_int_max_str_digits()` -/
def maxStrDigits : Nat := 4300

def Runtime.limits (rt : Runtime) : Limits := ⟨rt.recursion, maxStrDigits⟩

inductive PyError where
  | unicodeDecodeError
  | valueError
  | recursionError
  | unicodeEncodeError
deriving DecidableEq, Repr

/-- `body_bytes.decode("utf-8")` -/
def decodeUtf8 (body : List UInt8) : Option (List Char) :=
  (String.fromUTF8? ⟨body.toArray⟩).map String.toList

/-- The `str` of a text. -/
def ofText (text : List Char) : Text := text.map Char.toNat

/-! ## Requests, responses and records -/

structure Request where
  method : String
  endpoint : String
  userID : Option String
  body : List UInt8
deriving DecidableEq

structure Response where
  statusCode : Nat
  headers : List (String × String)
  content : List UInt8
deriving DecidableEq

/-- What changes from one record to the next in any case. -/
structure Stamp where
  requestID : String
  durationMs : Int
  timestamp : String

/-- A record apart from request id, duration and timestamp. -/
structure LogContent where
  method : String
  endpoint : String
  statusCode : Nat
  userID : Option String
  body : Option (Value Text)
deriving DecidableEq

structure LogRecord where
  stamp : Stamp
  content : LogContent

/-- `headers[key] = value` of a response, whose header names are in lower case. -/
def setHeader (key value : String) : List (String × String) → List (String × String)
  | [] => [(key, value)]
  | (k, v) :: headers =>
      if k = key then (key, value) :: headers.filter fun header => decide (header.1 ≠ key)
      else (k, v) :: setHeader key value headers

def Response.withRequestID (response : Response) (requestID : String) : Response :=
  { response with headers := setHeader "x-request-id" requestID response.headers }

/-! ## The middleware -/

def logsBody (method : String) : Bool := ["POST", "PUT", "DELETE"].contains method

def secretKeys : List Text := ["password", "refresh_token"].map fun key => ofText key.toList

/-- `"***"` for the secrets of an object. -/
def mask {α : Type} (stars : α) : Value α → Value α
  | .dict members => .dict (secretKeys.foldl (fun members key =>
      if members.has key then members.set key (.str stars) else members) members)
  | value => value

def stars : Text := ofText "***".toList

/-- The body as it is logged. -/
def loggedBody (rt : Runtime) (body : List UInt8) : Except PyError (Option (Value Text)) :=
  if body = [] then .ok none
  else
    match decodeUtf8 body with
    | none => .error .unicodeDecodeError
    | some text =>
        match loads rt.limits text with
        | .ok value => .ok (some (mask stars value))
        | .error .jsonDecodeError => .ok (some (.str (ofText text)))
        | .error .valueError => .error .valueError
        | .error .recursionError => .error .recursionError

/-- `print(json.dumps(log_record, ensure_ascii=False))`, where only the body can
    be nested or have an unpaired surrogate. -/
def printError (rt : Runtime) (body : Value Text) : Option PyError :=
  if rt.recursion < body.depth + 1 then some .recursionError
  else if body.all (·.all rt.encodes) (·.all rt.encodes) then none
  else some .unicodeEncodeError

structure Outcome (σ : Type) where
  result : Except PyError Response
  printed : Option LogRecord
  state : σ

/-- `log_requests`. `callNext` is the rest of the application, which takes its
    state to the next one. -/
def logRequests {σ : Type} (rt : Runtime) (stamp : Stamp) (request : Request)
    (callNext : σ → Response × σ) (state : σ) : Outcome σ :=
  let bodyBytes := if logsBody request.method then request.body else []
  let (response, state') := callNext state
  match loggedBody rt bodyBytes with
  | .error error => ⟨.error error, none, state'⟩
  | .ok body =>
      -- `None` is no body
      let present := body.filter fun value => decide (value ≠ .null)
      let record : LogRecord :=
        ⟨stamp, request.method, request.endpoint, response.statusCode, request.userID, present⟩
      match present.bind (printError rt) with
      | some error => ⟨.error error, none, state'⟩
      | none => ⟨.ok (response.withRequestID stamp.requestID), some record, state'⟩

/-! ## Transparency -/

section Transparency

variable {σ : Type} {rt : Runtime} {stamp : Stamp} {request : Request}
  {callNext : σ → Response × σ} {state : σ}

/-- The body that the middleware works on. -/
theorem printError_ofText (text : List Char) : printError rt (.str (ofText text)) = none := by
  have hdepth : ¬ rt.recursion < (Value.str (ofText text)).depth + 1 :=
    Nat.not_lt.mpr rt.recursion_pos
  have hencodes : (Value.str (ofText text)).all (·.all rt.encodes) (·.all rt.encodes) = true := by
    simp only [Value.all, ofText, List.all_map, List.all_eq_true]
    exact fun c _ => rt.encodes_char c
  rw [printError, if_neg hdepth, if_pos hencodes]

theorem printError_null : printError rt .null = none := by
  have hdepth : ¬ rt.recursion < (Value.null : Value Text).depth + 1 :=
    Nat.not_lt.mpr rt.recursion_pos
  rw [printError, if_neg hdepth]
  rfl

/-- A body that is `None` is printed as no body. -/
theorem present_bind (value : Value Text) :
    ((some value).filter fun value => decide (value ≠ .null)).bind (printError rt) =
      printError rt value := by
  by_cases hnull : value = .null
  · subst hnull
    exact printError_null.symm
  · simp [Option.filter, hnull]

end Transparency

/-- An interpreter that encodes everything but surrogates. -/
def utf8Runtime : Runtime where
  recursion := 900
  recursion_pos := by decide
  encodes n := decide (n < 0xD800 ∨ 0xE000 ≤ n)
  encodes_char c := by
    have hvalid := c.valid
    simp only [UInt32.isValidChar, Nat.isValidChar] at hvalid
    apply decide_eq_true
    have hc : c.toNat = c.val.toNat := rfl
    omega

def noon : Stamp := ⟨"5c9e", 3, "2026-05-01T12:00:00+00:00"⟩

/-- The tokens around the string of a secret, which stands after a key and a
    colon. -/
structure Template where
  before : List (Token Text)
  key : Text
  after : List (Token Text)
  secretKey : key ∈ secretKeys

def Template.tokens (template : Template) (secret : Text) : List (Token Text) :=
  template.before ++ .str template.key template.key :: .colon :: .str secret secret ::
    template.after

/-- The template with a hole for the secret. -/
def Template.holed (template : Template) : List (Token (Option Text)) :=
  template.before.map (Token.map some) ++ .str template.key (some template.key) :: .colon ::
    .str [] none :: template.after.map (Token.map some)

/-- Two bodies that are texts with these secrets in the same place, or no texts at
    all. -/
inductive Variants (template : Template) (secret secret' : Text) (body body' : List UInt8) :
    Prop where
  | texts (text text' : List Char) (hbody : decodeUtf8 body = some text)
      (hbody' : decodeUtf8 body' = some text') (htokens : tokens text = template.tokens secret)
      (htokens' : tokens text' = template.tokens secret')
  | binary (hbody : decodeUtf8 body = none) (hbody' : decodeUtf8 body' = none)

/-- The secret in its place. -/
def fill (secret : Text) (s : Option Text) : Text := s.getD secret

theorem map_fill_some (secret : Text) (tokens : List (Token Text)) :
    (tokens.map (Token.map some)).map (Token.map (fill secret)) = tokens := by
  rw [List.map_map]
  have hid : Token.map (fill secret) ∘ Token.map some = id := by
    funext token
    cases token <;> rfl
  rw [hid, List.map_id]

/-- What is read of a text with a secret, and what is read of its template. -/
theorem loads_template (limits : Limits) (template : Template) (secret : Text) {text : List Char}
    (htokens : tokens text = template.tokens secret) :
    loads limits text = (loadTokens limits template.holed).map (Value.map (fill secret)) := by
  have hholed : template.holed.map (Token.map (fill secret)) =
      template.before ++ .str template.key template.key :: .colon :: .str [] secret ::
        template.after := by
    simp only [Template.holed, List.map_append, List.map_cons, map_fill_some]
    rfl
  rw [← loadTokens_map, hholed, loads, htokens, Template.tokens, loadTokens, loadTokens,
    run_append, run_append]
  cases run limits (.beforeValue [] false) template.before with
  | error error => rfl
  | ok state =>
      simp only [Except.bind]
      rw [run_cons, run_cons]
      cases step limits state (.str template.key template.key) with
      | error error => rfl
      | ok next =>
          simp only [Except.bind]
          rw [run_colon limits next secret []]

theorem mask_map {α β : Type} (f : α → β) (stars : α) (value : Value α) :
    mask (f stars) (value.map f) = (mask stars value).map f := by
  cases value with
  | dict members =>
      have hset : ∀ (keys : List Text) (members : Members α),
          keys.foldl (fun members key =>
            if members.has key then members.set key (.str (f stars)) else members)
              (members.map f) =
            (keys.foldl (fun members key =>
              if members.has key then members.set key (.str stars) else members)
                members).map f := by
        intro keys
        induction keys with
        | nil => exact fun _ => rfl
        | cons key keys ih =>
            intro members
            rw [List.foldl_cons, List.foldl_cons, ← ih, Members.has_map]
            split
            · rw [Members.map_set]
              rfl
            · rfl
      exact congrArg Value.dict (hset secretKeys members)
  | _ => rfl

/-- A value without a hole. -/
def closed (value : Value (Option Text)) : Bool := value.all (fun _ => true) Option.isSome

theorem map_fill_eq_iff {secret secret' : Text} (hne : secret ≠ secret')
    (value : Value (Option Text)) :
    value.map (fill secret) = value.map (fill secret') ↔ closed value = true := by
  rw [Value.map_eq_map]
  have hagree : agree (fill secret) (fill secret') = Option.isSome := by
    funext s
    cases s with
    | none => exact decide_eq_false hne
    | some s => exact decide_eq_true rfl
  rw [hagree]
  rfl

/-- The body of the record that is printed, if one is. -/
def shown (rt : Runtime) (body : List UInt8) : Option (Option (Value Text)) :=
  match loggedBody rt body with
  | .error _ => none
  | .ok logged =>
      let present := logged.filter fun value => decide (value ≠ .null)
      if (present.bind (printError rt)).isSome then none else some present

section Shown

variable {σ : Type} {rt : Runtime} {body body' : List UInt8}

theorem printed_eq (stamp : Stamp) (request : Request) (callNext : σ → Response × σ) (state : σ) :
    (logRequests rt stamp request callNext state).printed.map LogRecord.content =
      (shown rt (if logsBody request.method then request.body else [])).map fun present =>
        ⟨request.method, request.endpoint, (callNext state).1.statusCode, request.userID,
          present⟩ := by
  unfold logRequests shown
  simp only
  cases loggedBody rt (if logsBody request.method then request.body else []) with
  | error error => rfl
  | ok logged =>
      simp only
      cases (logged.filter fun value => decide (value ≠ .null)).bind (printError rt) with
      | none => rfl
      | some error => rfl

/-- Two logged values are shown alike if they are the same or neither is
    printed. -/
theorem shown_eq_iff {value value' : Value Text} (h : loggedBody rt body = .ok (some value))
    (h' : loggedBody rt body' = .ok (some value')) : shown rt body = shown rt body' ↔
      value = value' ∨
        (printError rt value).isSome = true ∧ (printError rt value').isSome = true := by
  have hpresent : ∀ value : Value Text,
      ((some value).filter fun value => decide (value ≠ .null)) =
        if value = .null then none else some value := by
    intro value
    by_cases hnull : value = .null <;> simp [Option.filter, hnull]
  simp only [shown, h, h', present_bind]
  cases hprint : printError rt value with
  | some error =>
      cases hprint' : printError rt value' with
      | some error' => simp
      | none =>
          simp only [Option.isSome_some, if_true, Option.isSome_none, Bool.false_eq_true, if_false,
            and_false, or_false, reduceCtorEq, false_iff]
          rintro rfl
          cases hprint.symm.trans hprint'
  | none =>
      cases hprint' : printError rt value' with
      | some error' =>
          simp only [Option.isSome_some, if_true, Option.isSome_none, Bool.false_eq_true, if_false,
            false_and, or_false, reduceCtorEq, false_iff]
          rintro rfl
          cases hprint.symm.trans hprint'
      | none =>
          simp only [Option.isSome_none, Bool.false_eq_true, if_false, hpresent, false_and,
            or_false, Option.some.injEq]
          constructor
          · intro heq
            by_cases hnull : value = .null
            · by_cases hnull' : value' = .null
              · rw [hnull, hnull']
              · simp [hnull, hnull'] at heq
            · by_cases hnull' : value' = .null
              · simp [hnull, hnull'] at heq
              · simpa [hnull, hnull'] using heq
          · rintro rfl
            rfl

end Shown

/-- The record does not tell the secrets apart: nothing is printed, since the text
    cannot be read, or the text is an object of which every string that shows is
    outside of the hole, or neither value can be printed. -/
def Template.Hides (rt : Runtime) (template : Template) (secret secret' : Text) : Prop :=
  match loadTokens rt.limits template.holed with
  | .error .jsonDecodeError => False
  | .error _ => True
  | .ok value =>
      closed (mask (some stars) value) = true ∨
        (printError rt ((mask (some stars) value).map (fill secret))).isSome = true ∧
          (printError rt ((mask (some stars) value).map (fill secret'))).isSome = true

section Variants

variable {rt : Runtime} {template : Template} {secret secret' : Text} {body body' : List UInt8}

theorem ne_nil_of_tokens {text : List Char} (hbody : decodeUtf8 body = some text)
    (htokens : tokens text = template.tokens secret) : body ≠ [] := by
  rintro rfl
  have hnil : decodeUtf8 [] = some [] := by decide +kernel
  obtain rfl := Option.some.inj (hnil.symm.trans hbody)
  have hlength := congrArg List.length htokens
  simp [tokens, tokensOf, Template.tokens] at hlength

/-- The logged body, from what is read of the template. -/
theorem loggedBody_template {text : List Char} (hbody : decodeUtf8 body = some text)
    (htokens : tokens text = template.tokens secret) :
    loggedBody rt body = match loadTokens rt.limits template.holed with
      | .ok value => .ok (some ((mask (some stars) value).map (fill secret)))
      | .error .jsonDecodeError => .ok (some (.str (ofText text)))
      | .error .valueError => .error .valueError
      | .error .recursionError => .error .recursionError := by
  simp only [loggedBody, if_neg (ne_nil_of_tokens hbody htokens), hbody,
    loads_template rt.limits template secret htokens]
  cases loadTokens rt.limits template.holed with
  | ok value =>
      have hmask := mask_map (fill secret) (some stars) value
      simp only [Except.map]
      rw [← hmask]
      rfl
  | error error => cases error <;> rfl

theorem ofText_injective : Function.Injective ofText := by
  apply List.map_injective_iff.mpr
  intro c d h
  exact Char.ext (UInt32.toNat_inj.mp h)

/-- The bodies are shown alike if and only if the template hides the secrets. -/
theorem shown_variants_iff (hne : secret ≠ secret')
    (h : Variants template secret secret' body body') :
    shown rt body = shown rt body' ↔ decodeUtf8 body = none ∨ template.Hides rt secret secret' := by
  cases h with
  | binary hbody hbody' =>
      have hnone : ∀ {body : List UInt8}, decodeUtf8 body = none → shown rt body = none := by
        intro body hbody
        have hne : body ≠ [] := by
          rintro rfl
          have hnil : decodeUtf8 [] = some [] := by decide +kernel
          cases hnil.symm.trans hbody
        simp [shown, loggedBody, hne, hbody]
      rw [hnone hbody, hnone hbody']
      simp [hbody]
  | texts text text' hbody hbody' htokens htokens' =>
      have hlogged : loggedBody rt body = _ := loggedBody_template hbody htokens
      have hlogged' : loggedBody rt body' = _ := loggedBody_template hbody' htokens'
      have htext : text ≠ text' := by
        rintro rfl
        rw [htokens] at htokens'
        simp [Template.tokens, hne] at htokens'
      rw [hbody, Template.Hides]
      simp only [reduceCtorEq, false_or]
      cases hload : loadTokens rt.limits template.holed with
      | ok value =>
          rw [hload] at hlogged hlogged'
          rw [shown_eq_iff hlogged hlogged', map_fill_eq_iff hne]
      | error error =>
          rw [hload] at hlogged hlogged'
          cases error with
          | jsonDecodeError =>
              rw [shown_eq_iff hlogged hlogged', printError_ofText]
              simp [ofText_injective.ne htext]
          | valueError => simp [shown, hlogged, hlogged']
          | recursionError => simp [shown, hlogged, hlogged']

end Variants

/-- The records of two requests whose bodies differ in a secret are the same,
    apart from request id, duration and timestamp, if and only if the method has
    no logged body, the bodies are no UTF-8 or the template hides the secret. -/
theorem secret_hidden_iff {σ : Type} (rt : Runtime) (stamp stamp' : Stamp) (request : Request)
    (callNext : σ → Response × σ) (state : σ) {template : Template} {secret secret' : Text}
    (hne : secret ≠ secret') {body body' : List UInt8}
    (h : Variants template secret secret' body body') :
    (logRequests rt stamp { request with body := body } callNext state).printed.map
        LogRecord.content =
      (logRequests rt stamp' { request with body := body' } callNext state).printed.map
        LogRecord.content ↔
      logsBody request.method = false ∨ decodeUtf8 body = none ∨
        template.Hides rt secret secret' := by
  rw [printed_eq, printed_eq, ← shown_variants_iff hne h]
  cases logsBody request.method with
  | false => simp
  | true =>
      simp only [if_true, Bool.true_eq_false, false_or]
      constructor
      · intro heq
        apply Option.map_injective _ heq
        intro present present' hpresent
        simpa using hpresent
      · intro heq
        rw [heq]

/-! ## A password in a log in, and in one that is cut off -/

def ascii (text : String) : List UInt8 := text.toList.map fun c => UInt8.ofNat c.toNat

def loginRequest (body : List UInt8) : Request where
  method := "POST"
  endpoint := "/auth/login"
  userID := none
  body := body

def loginHandler (sessions : Nat) : Response × Nat :=
  (⟨200, [("content-type", "application/json")], []⟩, sessions + 1)

/-- The body of a log in, up to its last brace. -/
def login (password : String) : List UInt8 :=
  ascii ("\x7b\"email\":\"a@b\",\"password\":\"" ++ password ++ "\"")

def loginTemplate (after : List (Token Text)) : Template where
  before := [.openObject, .str (ofText "email".toList) (ofText "email".toList), .colon,
    .str (ofText "a@b".toList) (ofText "a@b".toList), .comma]
  key := ofText "password".toList
  after := after
  secretKey := by decide

theorem variants_login : Variants (loginTemplate [.closeObject]) (ofText "hunter2".toList)
    (ofText "letmein".toList) (login "hunter2" ++ ascii "\x7d")
    (login "letmein" ++ ascii "\x7d") :=
  .texts "\x7b\"email\":\"a@b\",\"password\":\"hunter2\"\x7d".toList
    "\x7b\"email\":\"a@b\",\"password\":\"letmein\"\x7d".toList
    (by decide +kernel) (by decide +kernel) (by decide +kernel) (by decide +kernel)

theorem secret_hidden_login :
    (logRequests utf8Runtime noon
        { loginRequest [] with body := login "hunter2" ++ ascii "\x7d" } loginHandler 0).printed.map
          LogRecord.content =
      (logRequests utf8Runtime noon
        { loginRequest [] with body := login "letmein" ++ ascii "\x7d" } loginHandler 0).printed.map
          LogRecord.content :=
  (secret_hidden_iff utf8Runtime noon noon (loginRequest []) loginHandler 0
    (show ofText "hunter2".toList ≠ ofText "letmein".toList by decide)
    variants_login).mpr (Or.inr (Or.inr (Or.inl (by decide +kernel))))

/-- Without its last brace the body is no JSON, and it is logged as it came. -/
theorem cut_off_login_leaks :
    Variants (loginTemplate []) (ofText "hunter2".toList) (ofText "letmein".toList)
        (login "hunter2") (login "letmein") ∧
      (logRequests utf8Runtime noon (loginRequest (login "hunter2")) loginHandler 0).printed.map
          LogRecord.content ≠
        (logRequests utf8Runtime noon (loginRequest (login "letmein")) loginHandler 0).printed.map
          LogRecord.content := by
  constructor
  · exact .texts "\x7b\"email\":\"a@b\",\"password\":\"hunter2\"".toList
      "\x7b\"email\":\"a@b\",\"password\":\"letmein\"".toList
      (by decide +kernel) (by decide +kernel) (by decide +kernel) (by decide +kernel)
  · decide +kernel

end SoaHomework.RequestLogging
