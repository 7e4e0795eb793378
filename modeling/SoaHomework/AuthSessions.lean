import SoaHomework.AuthRequests
import SoaHomework.Calendar
import SoaHomework.ServiceHistory

/-!
# Sessions

A user is served only as long as a login allows it: every accepted access token goes
back to a login with the user's password, directly or through one refresh token, and
within the configured lifetimes (`sessions_from_logins`). Conversely registered users
can log in (`registered_can_log_in`), and tokens work until they expire
(`sessions_last`), whatever the other requests do meanwhile.
-/

namespace SoaHomework.Marketplace.Auth

open StatementProgram

variable {config : Config} {users : Users} {clock : Int} {pool first final : AuthPool}
  {event : AuthEvent} {u : Uuid} {row : UserRow}

/-! ## What is relied on -/

/-- What is relied on of `jose`: a token is read back with its key until it expires, and
    not with the other secret of the service; one that has expired is refused; and a token
    is the compact text of a JWS. -/
structure Config.Documented (config : Config) : Prop where
  decode_encode : ∀ subject role tokenType secret issued expires now,
    config.jwt.decode
      (config.jwt.encode (claims subject role tokenType issued expires) (config.secret secret))
      (config.secret secret) now =
        if now ≤ expires then .ok (claims subject role tokenType issued expires)
        else .error .expired
  decode_other : ∀ payload tokenType tokenType' now,
    config.secret tokenType ≠ config.secret tokenType' →
      config.jwt.decode (config.jwt.encode payload (config.secret tokenType))
        (config.secret tokenType') now = .error .invalid
  expiry : ∀ token key now payload expires, config.jwt.decode token key now = .ok payload →
    payload.get? "exp" = some (.number expires) → now ≤ expires
  compact : ∀ payload key, strip (config.jwt.encode payload key) = config.jwt.encode payload key ∧
    config.jwt.encode payload key ≠ ""

/-- What is relied on of `passlib`: a hash verifies the password it was made of. -/
def PwdContext.Documented (pwdContext : PwdContext) : Prop :=
  ∀ salt password hashed, pwdContext.hash salt password = some hashed →
    pwdContext.verify password hashed = true

/-- The unique index on `email`. -/
def UniqueEmails (users : Users) : Prop :=
  ∀ id id' row row', users.lookup id = some row → users.lookup id' = some row' →
    row.email = row'.email → id = id'

/-- The token that a request presents. -/
def Request.token? : Request → Option String
  | .refresh token => some token
  | .bearer credentials => credentials.map strip
  | _ => none

/-- If a token decodes with a key of the service, its payload has been signed with it. -/
def Genuine (config : Config) (token : String) (s : State) : Prop :=
  ∀ tokenType t payload, config.jwt.decode token (config.secret tokenType) t = .ok payload →
    ∃ signed ∈ s.signed, signed.key = config.secret tokenType ∧ signed.payload = payload

/-- The same, and it was signed by `c`. -/
def GenuineBy (config : Config) (token : String) (c : Int) (s : State) : Prop :=
  ∀ tokenType t payload, config.jwt.decode token (config.secret tokenType) t = .ok payload →
    ∃ signed ∈ s.signed, signed.key = config.secret tokenType ∧ signed.payload = payload ∧
      signed.time ≤ c

theorem genuine_of_signed (hjwt : config.Documented) {s : State} {i : Nat} {subject : Uuid}
    {role : UserRole} {tokenType secret : TokenType} {issued expires time : Int}
    (hsigned : ⟨i, config.secret secret, claims subject role tokenType issued expires, time⟩ ∈
      s.signed) :
    Genuine config (config.jwt.encode (claims subject role tokenType issued expires)
      (config.secret secret)) s := by
  intro tokenType' t payload hdecode
  by_cases hkey : config.secret secret = config.secret tokenType'
  · rw [← hkey, hjwt.decode_encode] at hdecode
    split at hdecode
    · exact ⟨_, hsigned, hkey, Except.ok.inj hdecode⟩
    · cases hdecode
  · rw [hjwt.decode_other _ _ _ _ hkey] at hdecode
    cases hdecode

/-- Nobody else signs tokens: those presented are genuine. -/
def Unforged (config : Config) (pool : AuthPool) : AuthEvent → Prop
  | .start request => ∀ token, request.token? = some token → Genuine config token pool.shared
  | _ => True

/-! ## Runs -/

theorem holds_start (husers : UniqueEmails users) (clock : Int) :
    (discipline config).Holds (service config) (start users clock) := by
  refine Discipline.holds_initial ⟨RowStore.consistent_ofRows ?_, fun i id hid => ?_⟩
    fun i => RowStore.idle_ofRows users i
  · intro id id' row row' email hrow hrow' hemail hemail'
    refine husers id id' row row' hrow hrow' ?_
    exact Option.some.inj (hemail.trans hemail'.symm)
  · exact absurd hid (AList.notMem_empty id)

theorem allowed_any (pool : AuthPool) (event : AuthEvent) :
    (discipline config).Allowed pool event := by
  cases event with
  | start request => exact fun _ _ _ _ => ⟨trivial, trivial⟩
  | step i choice => exact fun _ _ _ _ => trivial
  | stop i => trivial
  | outside change => trivial

theorem holds_steps (h : (discipline config).Holds (service config) first)
    {allowed : AuthPool → AuthEvent → Prop} (hsteps : (service config).Steps allowed first final) :
    (discipline config).Holds (service config) final :=
  Discipline.holds_steps (sound config) (hsteps.mono fun pool event _ => allowed_any pool event) h

/-- What a step does to the shared state. -/
structure Advances (config : Config) (pool final : AuthPool) : Prop where
  grows : Grows pool.shared final.shared
  signed : ∀ token ∈ final.shared.signed, token ∈ pool.shared.signed ∨
    token.time ≤ final.shared.clock ∧ ∃ i request program, pool.Runs i request program ∧
      Issued config i final.shared token request
  readings : ∀ i t, (i, t) ∈ final.shared.readings → (i, t) ∈ pool.shared.readings ∨
    t = pool.shared.clock ∧ i < pool.threads.length

theorem advances_of_next (h : (discipline config).Holds (service config) pool)
    (hnext : (service config).next pool event = some final) : Advances config pool final := by
  have hguarantee : ∀ {i request program status} {s : State}, pool.Runs i request program →
      Guarantee config request i pool.shared s →
      Advances config pool (pool.update i status s) := by
    refine fun hruns hg => ⟨hg.grows, fun token htoken => ?_, fun j t hreading => ?_⟩
    · rcases hg.signed token htoken with hold | ⟨hissued, htime⟩
      · exact Or.inl hold
      · exact Or.inr ⟨Int.le_of_eq htime, _, _, _, hruns, hissued⟩
    · rcases hg.readings (j, t) hreading with hold | hnew
      · exact Or.inl hold
      · obtain ⟨rfl, rfl⟩ := Prod.mk.inj hnew
        exact Or.inr ⟨rfl, Service.lt_length_of_getElem hruns⟩
  cases Service.move_of_next hnext with
  | start request => exact ⟨.refl _, fun _ h => Or.inl h, fun _ _ h => Or.inl h⟩
  | exec hthread hexec =>
      exact hguarantee hthread (h.guarantee (sound config) hthread trivial hexec)
  | answer hthread _ => exact hguarantee hthread ((sound config).close_guarantee _ _ _ h.inv)
  | stop hthread => exact hguarantee hthread ((sound config).close_guarantee _ _ _ h.inv)
  | outside hchange =>
      simp only [service, Option.some.injEq] at hchange
      subst hchange
      exact ⟨⟨fun _ _ h => h, by simp, fun _ h => h, fun _ h => h, fun _ h => h⟩,
        fun _ h => Or.inl h, fun _ _ h => Or.inl h⟩

theorem grows_steps (h : (discipline config).Holds (service config) first)
    {allowed : AuthPool → AuthEvent → Prop} (hsteps : (service config).Steps allowed first final) :
    Grows first.shared final.shared := by
  induction hsteps with
  | refl => exact .refl _
  | tail event hsteps' _ hnext ih =>
      exact ih.trans (advances_of_next (holds_steps h hsteps') hnext).grows

/-! ## Where tokens come from -/

/-- Request `i` is `request`. -/
abbrev Has (pool : AuthPool) (i : Nat) (request : Request)
    (status : Status Statement Answer HandlerError Response) : Prop :=
  pool.threads[i]? = some ⟨request, status⟩

/-- Every signed token has been issued by a request, and every token presented is
    genuine since before its request has read the clock. -/
structure Sourced (config : Config) (pool : AuthPool) : Prop where
  holds : (discipline config).Holds (service config) pool
  issued : ∀ token ∈ pool.shared.signed, ∃ i request status, Has pool i request status ∧
    Issued config i pool.shared token request
  timed : ∀ token ∈ pool.shared.signed, token.time ≤ pool.shared.clock
  started : ∀ i t, (i, t) ∈ pool.shared.readings → i < pool.threads.length
  genuine : ∀ i request status token, Has pool i request status →
    request.token? = some token → ∃ c ≤ pool.shared.clock,
      GenuineBy config token c pool.shared ∧ ∀ t, (i, t) ∈ pool.shared.readings → c ≤ t

theorem GenuineBy.grows {token : String} {c : Int} {s s' : State}
    (h : GenuineBy config token c s) (hgrows : Grows s s') : GenuineBy config token c s' := by
  intro tokenType t payload hdecode
  obtain ⟨signed, hsigned, hrest⟩ := h tokenType t payload hdecode
  exact ⟨signed, hgrows.signed signed hsigned, hrest⟩

theorem Sourced.next (h : Sourced config pool) (hunforged : Unforged config pool event)
    (hnext : (service config).next pool event = some final) : Sourced config final := by
  obtain ⟨hgrows, hsigned, hreadings⟩ := advances_of_next h.holds hnext
  refine ⟨Discipline.holds_next (sound config) h.holds (allowed_any pool event) hnext,
    fun token htoken => ?_, fun token htoken => ?_, fun i t hreading => ?_,
    fun i request status token hthread htoken => ?_⟩
  · rcases hsigned token htoken with hold | ⟨_, i, request, program, hruns, hissued⟩
    · obtain ⟨i, request, status, hthread, hissued⟩ := h.issued token hold
      obtain ⟨⟨request', status'⟩, hafter, rfl⟩ := Service.thread_kept hnext hthread
      exact ⟨i, request', status', hafter, hissued.grows hgrows⟩
    · obtain ⟨⟨request', status'⟩, hafter, rfl⟩ := Service.thread_kept hnext hruns
      exact ⟨i, request', status', hafter, hissued⟩
  · rcases hsigned token htoken with hold | ⟨htime, _⟩
    · exact Int.le_trans (h.timed token hold) hgrows.clock
    · exact htime
  · have hbefore : i < pool.threads.length := by
      rcases hreadings i t hreading with hold | ⟨_, hlt⟩
      · exact h.started i t hold
      · exact hlt
    obtain ⟨after, hafter, _⟩ := Service.thread_kept hnext (List.getElem?_eq_getElem hbefore)
    exact Service.lt_length_of_getElem hafter
  · rcases Service.thread_of_next hnext hthread with ⟨⟨request', status'⟩, hbefore, heq⟩ |
      ⟨rfl, hnew⟩
    · obtain rfl : request' = request := heq
      obtain ⟨c, hc, hgenuine, hbound⟩ := h.genuine i request' status' token hbefore htoken
      refine ⟨c, Int.le_trans hc hgrows.clock, hgenuine.grows hgrows, fun t hreading => ?_⟩
      rcases hreadings i t hreading with hold | ⟨rfl, _⟩
      · exact hbound t hold
      · exact hc
    · -- what is presented has been signed before the request starts
      refine ⟨pool.shared.clock, hgrows.clock, fun tokenType t payload hdecode => ?_,
        fun t hreading => ?_⟩
      · obtain ⟨signed, hmem, hkey, hpayload⟩ := hunforged token htoken tokenType t payload hdecode
        exact ⟨signed, hgrows.signed signed hmem, hkey, hpayload, h.timed signed hmem⟩
      · rcases hreadings i t hreading with hold | ⟨_, hlt⟩
        · exact absurd (h.started i t hold) (by omega)
        · omega

theorem sourced_steps (husers : UniqueEmails users)
    (hsteps : (service config).Steps (Unforged config) (start users clock) pool) :
    Sourced config pool := by
  refine hsteps.invariant (fun _ _ _ hpool hunforged hnext => Sourced.next hpool hunforged hnext)
    ⟨holds_start husers clock, fun token htoken => ?_, fun token htoken => ?_,
      fun i t hreading => ?_, fun i request status token hthread => ?_⟩
  · cases htoken
  · cases htoken
  · cases hreading
  · simp [Has, start, Pool.initial] at hthread

theorem decode_of_verdict {token : String} {tokenType : TokenType} {t : Int} {payload : Payload}
    (h : config.verdict token tokenType t = .ok payload) :
    config.jwt.decode token (config.secret tokenType) (seconds t) = .ok payload ∧
      payload.get? "type" = some (.text tokenType.value) := by
  unfold Config.verdict at h
  split at h
  · cases h
  · cases h
  · rename_i hdecode
    split at h
    · rename_i htype
      cases h
      exact ⟨hdecode, htype⟩
    · cases h

theorem TokenType.value_injective {tokenType tokenType' : TokenType}
    (h : tokenType.value = tokenType'.value) : tokenType = tokenType' := by
  cases tokenType with
  | access =>
      cases tokenType' with
      | access => rfl
      | refresh => exact absurd h (by decide)
  | refresh =>
      cases tokenType' with
      | access => exact absurd h (by decide)
      | refresh => rfl

/-- What verified claims say of a token that has been issued with them. -/
theorem claims_of_verdict (hjwt : config.Documented) {token : String}
    {tokenType tokenType' : TokenType} {t t' : Int} {payload : Payload}
    (hverdict : config.verdict token tokenType t = .ok payload)
    (hsubject : payload.get? "sub" = some (.uuid u)) {u' : Uuid}
    (hclaims : payload = config.claimsOf u' row tokenType' t') :
    u' = u ∧ tokenType' = tokenType ∧
      seconds t ≤ timestamp (t' + config.lifetime tokenType') := by
  obtain ⟨hdecode, htype⟩ := decode_of_verdict hverdict
  subst hclaims
  refine ⟨?_, ?_, hjwt.expiry _ _ _ _ _ hdecode rfl⟩
  · exact Claim.uuid.inj (Option.some.inj hsubject)
  · exact TokenType.value_injective (Claim.text.inj (Option.some.inj htype))

/-- Request `j` has signed `payload`, the claims of a token of `u` that it has made at `t`. -/
structure Made (config : Config) (pool : AuthPool) (j : Nat) (u : Uuid) (row : UserRow)
    (tokenType : TokenType) (t : Int) (payload : Payload) : Prop where
  reading : (j, t) ∈ pool.shared.readings
  claims : payload = config.claimsOf u row tokenType t
  signed : ∃ time, ⟨j, config.secret tokenType, payload, time⟩ ∈ pool.shared.signed

/-- Request `i` has verified the token at `t`, which holds `payload`. -/
structure Accepted (config : Config) (pool : AuthPool) (i : Nat) (token : String)
    (tokenType : TokenType) (payload : Payload) (t : Int) : Prop where
  reading : (i, t) ∈ pool.shared.readings
  verdict : config.verdict token tokenType t = .ok payload

/-- Where an accepted token of `u` comes from: from a login with the password of `u`, or
    from a request with a refresh token, when it is an access token. -/
inductive Origin (config : Config) (pool : AuthPool) (u : Uuid) (row : UserRow)
    (tokenType : TokenType) (t : Int) (payload : Payload) : Prop where
  | login {j login status t₀} (hthread : Has pool j (.login login) status)
      (hauthentic : Authentic config login u row pool.shared)
      (hmade : Made config pool j u row tokenType t₀ payload) (hle : t₀ ≤ t)
      (hlifetime : seconds t ≤ timestamp (t₀ + config.lifetime tokenType)) :
      Origin config pool u row tokenType t payload
  | refresh {k token status payload₁ t₁ t₂} (haccess : tokenType = .access)
      (hthread : Has pool k (.refresh token) status)
      (haccepted : Accepted config pool k token .refresh payload₁ t₁)
      (hsubject : payload₁.get? "sub" = some (.uuid u))
      (hmade : Made config pool k u row .access t₂ payload) (hbefore : t₁ ≤ t₂) (hle : t₂ ≤ t)
      (hlifetime : seconds t ≤ timestamp (t₂ + config.lifetime .access)) :
      Origin config pool u row tokenType t payload

/-- An accepted token is one that a request has issued. -/
theorem Sourced.origin (h : Sourced config pool) (hjwt : config.Documented) {i : Nat}
    {request : Request} {status : Status Statement Answer HandlerError Response}
    (hthread : Has pool i request status) {token : String} (htoken : request.token? = some token)
    {tokenType : TokenType} {payload : Payload} {t : Int}
    (haccepted : Accepted config pool i token tokenType payload t)
    (hsubject : payload.get? "sub" = some (.uuid u))
    (hrow : pool.shared.db.rows.lookup u = some row) :
    Origin config pool u row tokenType t payload := by
  have hsame : ∀ {row' : UserRow}, pool.shared.db.rows.lookup u = some row' → row' = row :=
    fun hrow' => Option.some.inj (hrow'.symm.trans hrow)
  obtain ⟨c, _, hgenuine, hbound⟩ := h.genuine i _ _ _ hthread htoken
  obtain ⟨signed, hsigned, _, hpayload, htime⟩ :=
    hgenuine tokenType _ _ (decode_of_verdict haccepted.verdict).1
  have hc : signed.time ≤ t := Int.le_trans htime (hbound t haccepted.reading)
  obtain ⟨j, request', status', hthread', hissued⟩ := h.issued signed hsigned
  cases hissued with
  | @login login u' row' tokenType' t₀ hauthentic ht₀ hmade htoken' =>
      rw [htoken'] at hpayload hsigned
      obtain ⟨rfl, rfl, hexpiry⟩ :=
        claims_of_verdict hjwt haccepted.verdict hsubject hpayload.symm
      obtain rfl := hsame hauthentic.stored
      obtain rfl := hpayload
      exact .login hthread' hauthentic ⟨ht₀, rfl, _, hsigned⟩ (Int.le_trans hmade hc) hexpiry
  | @refresh token' u' row' payload₁ t₁ t₂ hstored hverdict₁ hsubject₁ ht₁ ht₂ hle hmade htoken' =>
      rw [htoken'] at hpayload hsigned
      obtain ⟨rfl, rfl, hexpiry⟩ :=
        claims_of_verdict hjwt haccepted.verdict hsubject hpayload.symm
      obtain rfl := hsame hstored
      obtain rfl := hpayload
      exact .refresh rfl hthread' ⟨ht₁, hverdict₁⟩ hsubject₁ ⟨ht₂, rfl, _, hsigned⟩ hle
        (Int.le_trans hmade hc) hexpiry

/-- The access token that holds `payload` and is verified at `t` goes back to a login with
    the password of `u`: it was made in the login, or with a refresh token made in it. The
    times are in order, and neither token had expired when it was verified. -/
def FromLogin (config : Config) (pool : AuthPool) (u : Uuid) (row : UserRow) (payload : Payload)
    (t : Int) : Prop :=
  ∃ j login status t₀, Has pool j (.login login) status ∧
    Authentic config login u row pool.shared ∧
    ((Made config pool j u row .access t₀ payload ∧ t₀ ≤ t ∧
        seconds t ≤ timestamp (t₀ + config.lifetime .access)) ∨
      ∃ k token status' payload₁ t₁ t₂, Has pool k (.refresh token) status' ∧
        Made config pool j u row .refresh t₀ payload₁ ∧
        Accepted config pool k token .refresh payload₁ t₁ ∧
        Made config pool k u row .access t₂ payload ∧ t₀ ≤ t₁ ∧ t₁ ≤ t₂ ∧ t₂ ≤ t ∧
        seconds t₁ ≤ timestamp (t₀ + config.lifetime .refresh) ∧
        seconds t ≤ timestamp (t₂ + config.lifetime .access))

/-- Every request that is served as `u` goes back to a login with the password of `u`:
    its access token was made in that login, or with a refresh token made in it, and
    neither had expired when it was verified. -/
theorem sessions_from_logins (hjwt : config.Documented) (husers : UniqueEmails users)
    (hsteps : (service config).Steps (Unforged config) (start users clock) pool) {i : Nat}
    {credentials : Option String} {response : Response}
    (hanswered : pool.Answered i (.bearer credentials) (.ok response)) :
    ∃ u row value payload t, response = .current u row.role ∧ credentials = some value ∧
      Accepted config pool i (strip value) .access payload t ∧
      FromLogin config pool u row payload t := by
  have hsourced := sourced_steps husers hsteps
  obtain ⟨u, row, value, payload, t, hresponse, hrow, rfl, ht, hverdict, hsubject⟩ :=
    hsourced.holds.answered i _ _ hanswered response rfl
  have haccepted : Accepted config pool i (strip value) .access payload t := ⟨ht, hverdict⟩
  refine ⟨u, row, value, payload, t, hresponse, rfl, haccepted, ?_⟩
  cases hsourced.origin hjwt hanswered rfl haccepted hsubject hrow with
  | login hthread hauthentic hmade hle hlifetime =>
      exact ⟨_, _, _, _, hthread, hauthentic, Or.inl ⟨hmade, hle, hlifetime⟩⟩
  | @refresh k token status₁ payload₁ t₁ t₂ _ hthread haccepted₁ hsubject₁ hmade hbefore hle
      hlifetime =>
      cases hsourced.origin hjwt hthread rfl haccepted₁ hsubject₁ hrow with
      | login hthread₀ hauthentic hmade₀ hle₀ hlifetime₀ =>
          exact ⟨_, _, _, _, hthread₀, hauthentic, Or.inr ⟨k, token, status₁, payload₁, t₁, t₂,
            hthread, hmade₀, haccepted₁, hmade, hle₀, hbefore, hle, hlifetime₀, hlifetime⟩⟩
      | refresh haccess => cases haccess

/-! ## Sessions work -/

/-- The tokens of a stored user, as they are issued at `t`. -/
def Config.token (config : Config) (u : Uuid) (row : UserRow) (tokenType : TokenType) (t : Int) :
    String :=
  config.jwt.encode (config.claimsOf u row tokenType t) (config.secret tokenType)

/-- The answer to a request that a stored user is entitled to, unless the request
    breaks. -/
inductive Granted (config : Config) (i : Nat) (s : State) (good : Response → Prop) :
    Except HandlerError Response → Prop where
  | good {response} (h : good response) : Granted config i s good (.ok response)
  | failed {error} (h : Broken config i s) : Granted config i s good (.error (.db error))

/-- The answer to a request with a token that was made at `t`: until its expiry the token is
    good, and from then on it is refused as expired. What counts is when the request
    verifies it. -/
def Judged (config : Config) (i : Nat) (s : State) (tokenType : TokenType) (t : Int)
    (good : Response → Prop) (result : Except HandlerError Response) : Prop :=
  ∃ t', (i, t') ∈ s.readings ∧ t' ≤ s.clock ∧
    (seconds t' ≤ timestamp (t + config.lifetime tokenType) ∧ Granted config i s good result ∨
      timestamp (t + config.lifetime tokenType) < seconds t' ∧
        result = .error (.api ⟨tokenType.expiredCode, 401, "Token expired", .none⟩))

/-- How a login with the credentials of `u`, and requests with tokens of `u`, are
    answered. -/
structure Lasts (config : Config) (u : Uuid) (row : UserRow) (request : Request) (i : Nat)
    (result : Except HandlerError Response) (s : State) : Prop where
  login : ∀ payload, request = .login payload → payload.email = row.email →
    config.pwdContext.verify payload.password row.hashedPassword = true →
    Granted config i s (fun response => ∃ t₁ t₂, (i, t₁) ∈ s.readings ∧ (i, t₂) ∈ s.readings ∧
      response = .tokens (config.token u row .access t₁) (config.token u row .refresh t₂)) result
  bearer : ∀ t, request = .bearer (some (config.token u row .access t)) →
    Judged config i s .access t (fun response => response = .current u row.role) result
  refresh : ∀ t, request = .refresh (config.token u row .refresh t) →
    Judged config i s .refresh t (fun response => ∃ t', (i, t') ∈ s.readings ∧ response =
      .tokens (config.token u row .access t') (config.token u row .refresh t)) result
  mixed : ∀ t response, request = .bearer (some (config.token u row .refresh t)) ∨
    request = .refresh (config.token u row .access t) → result ≠ .ok response

variable {s s' : State} {request : Request} {i n : Nat} {result : Except HandlerError Response}

theorem Granted.grows {good good' : Response → Prop} (h : Granted config i s good result)
    (hgrows : Grows s s') (hgood : ∀ response, good response → good' response) :
    Granted config i s' good' result := by
  cases h with
  | good h => exact .good (hgood _ h)
  | failed h => exact .failed (h.grows hgrows)

theorem Judged.grows {tokenType : TokenType} {t : Int} {good good' : Response → Prop}
    (h : Judged config i s tokenType t good result) (hgrows : Grows s s')
    (hgood : ∀ response, good response → good' response) :
    Judged config i s' tokenType t good' result := by
  obtain ⟨t', ht', hle, hresult⟩ := h
  refine ⟨t', hgrows.readings _ ht', Int.le_trans hle hgrows.clock, ?_⟩
  rcases hresult with ⟨hvalid, hgranted⟩ | hexpired
  · exact Or.inl ⟨hvalid, hgranted.grows hgrows hgood⟩
  · exact Or.inr hexpired

theorem Lasts.grows (h : Lasts config u row request i result s) (hgrows : Grows s s') :
    Lasts config u row request i result s' where
  login payload heq hemail hpassword := by
    refine (h.login payload heq hemail hpassword).grows hgrows fun response hresponse => ?_
    obtain ⟨t₁, t₂, ht₁, ht₂, hresponse⟩ := hresponse
    exact ⟨t₁, t₂, hgrows.readings _ ht₁, hgrows.readings _ ht₂, hresponse⟩
  bearer t heq := (h.bearer t heq).grows hgrows fun _ h => h
  refresh t heq := by
    refine (h.refresh t heq).grows hgrows fun response hresponse => ?_
    obtain ⟨t', ht', hresponse⟩ := hresponse
    exact ⟨t', hgrows.readings _ ht', hresponse⟩
  mixed := h.mixed

theorem Stored.unique_email (h : Stored s) {u' : Uuid} {row' : UserRow}
    (hrow : s.db.rows.lookup u = some row) (hrow' : s.db.rows.lookup u' = some row')
    (hemail : row'.email = row.email) : u' = u ∧ row' = row := by
  obtain rfl := h.consistent.unique u' u row' row row.email hrow' hrow
    (congrArg some hemail) rfl
  exact ⟨rfl, Option.some.inj (hrow'.symm.trans hrow)⟩

theorem userByEmail_of_lookup (h : Stored s) (hrow : s.db.rows.lookup u = some row) :
    userByEmail s.db.rows row.email = some (u, row) := by
  cases hfound : userByEmail s.db.rows row.email with
  | none =>
      have hnone := List.findSome?_eq_none_iff.mp hfound ⟨u, row⟩ (AList.mem_lookup_iff.mp hrow)
      simp at hnone
  | some found =>
      obtain ⟨u', row'⟩ := found
      obtain ⟨hrow', hemail⟩ := userByEmail_eq_some hfound
      obtain ⟨rfl, rfl⟩ := h.unique_email hrow hrow' hemail
      rfl

/-- How a token of `u` is judged. -/
theorem verdict_token (hjwt : config.Documented) (u : Uuid) (row : UserRow)
    (tokenType : TokenType) (t t' : Int) :
    config.verdict (config.token u row tokenType t) tokenType t' =
      if seconds t' ≤ timestamp (t + config.lifetime tokenType) then
        .ok (config.claimsOf u row tokenType t)
      else .error ⟨tokenType.expiredCode, 401, "Token expired", .none⟩ := by
  have hdecode := hjwt.decode_encode u row.role tokenType tokenType (timestamp t)
    (timestamp (t + config.lifetime tokenType)) (seconds t')
  unfold Config.verdict Config.token Config.claimsOf
  rw [hdecode]
  by_cases hexpired : seconds t' ≤ timestamp (t + config.lifetime tokenType)
  · simp only [if_pos hexpired]
    exact if_pos rfl
  · simp only [if_neg hexpired]

/-- A token of one type is never taken for one of the other. -/
theorem verdict_mixed (hjwt : config.Documented) {tokenType tokenType' : TokenType}
    (hne : tokenType ≠ tokenType') (t t' : Int) (payload : Payload) :
    config.verdict (config.token u row tokenType t) tokenType' t' ≠ .ok payload := by
  intro hverdict
  obtain ⟨hdecode, htype⟩ := decode_of_verdict hverdict
  by_cases hkey : config.secret tokenType = config.secret tokenType'
  · rw [← hkey, Config.token, Config.claimsOf, hjwt.decode_encode] at hdecode
    split at hdecode
    · cases hdecode
      exact hne (TokenType.value_injective (Claim.text.inj (Option.some.inj htype)))
    · cases hdecode
  · rw [Config.token, hjwt.decode_other _ _ _ _ hkey] at hdecode
    cases hdecode

/-- Requests while `u` is stored. -/
abbrev lasting (config : Config) (u : Uuid) (row : UserRow) (n : Nat) :
    Discipline Statement HandlerError Response Request State :=
  (discipline config).since n (fun s => s.db.rows.lookup u = some row)
    (Lasts config u row)

theorem over_lasting (config : Config) (u : Uuid) (row : UserRow) (n : Nat) :
    Over config (lasting config u row n) where
  rely _ _ _ _ h := h
  stored _ h := h.1
  step _ _ _ _ h hstored hguarantee := ⟨⟨hstored, hguarantee.grows.users u row h.2⟩, hguarantee⟩
  known _ _ _ _ := trivial

/-- What holds at the end of a request that relies on `u`. -/
abbrev LastsAfter (config : Config) (u : Uuid) (row : UserRow) (n i : Nat) (request : Request) :
    Prop :=
  (lasting config u row n).Triple (service config) request i (fun s => s.db.Idle i)
    (handle config request) (Lasts config u row request i)

theorem lastsAfter_register (payload : AuthRegisterRequest) :
    LastsAfter config u row n i (.register payload) :=
  Discipline.Triple.mono
    (does_registerUser (R := fun _ _ => True) (over_lasting config u row n) fun _ _ => trivial)
    (fun s _ h => ⟨h, trivial⟩) fun result s _ _ =>
      ⟨fun _ heq => (by cases heq), fun _ heq => (by cases heq), fun _ heq => (by cases heq),
        fun _ _ heq => (by rcases heq with heq | heq <;> cases heq)⟩

/-- The login has the credentials of the user. -/
def Entitled (config : Config) (row : UserRow) (payload : AuthLoginRequest) : Prop :=
  payload.email = row.email ∧
    config.pwdContext.verify payload.password row.hashedPassword = true

theorem lastsAfter_login (payload : AuthLoginRequest) :
    LastsAfter config u row n i (.login payload) := by
  refine Discipline.Triple.mono (does_loginUser (R := fun error s =>
      Entitled config row payload → Granted config i s (fun _ => False) (.error error))
      (over_lasting config u row n) (fun s hinv hwrong hright => ?_)
      fun error s _ hbroken _ => .failed hbroken)
    (fun s _ h => ⟨h, trivial⟩) fun result s hinv h =>
      ⟨fun payload' heq hemail hpassword => ?_, fun _ heq => (by cases heq),
        fun _ heq => (by cases heq), fun _ _ heq => (by rcases heq with heq | heq <;> cases heq)⟩
  · obtain ⟨hemail, hpassword⟩ := hright
    have hfound := userByEmail_of_lookup hinv.1 hinv.2
    rw [← hemail] at hfound
    rw [hwrong u row hfound] at hpassword
    cases hpassword
  · cases heq
    cases result with
    | ok response =>
        obtain ⟨u', row', t₁, t₂, hauthentic, ht₁, ht₂, rfl⟩ := h
        obtain ⟨rfl, rfl⟩ := hinv.1.unique_email hinv.2 hauthentic.stored
          (hauthentic.email.trans hemail)
        exact .good ⟨t₁, t₂, ht₁, ht₂, rfl⟩
    | error error => exact (h ⟨hemail, hpassword⟩).grows (.refl s) fun _ h => h.elim

theorem userOf_claimsOf {users : Users} (hrow : users.lookup u = some row)
    (tokenType : TokenType) (t : Int) :
    userOf users ((config.claimsOf u row tokenType t).get? "sub") = some (u, row) := by
  change (users.lookup u).map (fun row => (u, row)) = some (u, row)
  rw [hrow, Option.map_some]

/-- A verdict on a token of `u`. -/
theorem judged (hjwt : config.Documented) {tokenType : TokenType} {t t' : Int} :
    (∀ payload, config.verdict (config.token u row tokenType t) tokenType t' = .ok payload →
      payload = config.claimsOf u row tokenType t ∧
        seconds t' ≤ timestamp (t + config.lifetime tokenType)) ∧
    ∀ error, config.verdict (config.token u row tokenType t) tokenType t' = .error error →
      error = ⟨tokenType.expiredCode, 401, "Token expired", .none⟩ ∧
        timestamp (t + config.lifetime tokenType) < seconds t' := by
  rw [verdict_token hjwt]
  by_cases hexpired : seconds t' ≤ timestamp (t + config.lifetime tokenType)
  · rw [if_pos hexpired]
    exact ⟨fun _ heq => ⟨(Except.ok.inj heq).symm, hexpired⟩, fun _ heq => by cases heq⟩
  · rw [if_neg hexpired]
    exact ⟨fun _ heq => (by cases heq), fun _ heq =>
      ⟨(Except.error.inj heq).symm, Int.lt_of_not_ge hexpired⟩⟩

/-- The user whom a verified token of `u` vouches for. -/
theorem Vouched.user (hjwt : config.Documented) {tokenType : TokenType} {t : Int}
    {u' : Uuid} {row' : UserRow} (hrow : s.db.rows.lookup u = some row)
    (h : Vouched config i (config.token u row tokenType t) tokenType u' row' s) :
    u' = u ∧ row' = row := by
  obtain ⟨hrow', payload, t', hverified, hsubject⟩ := h
  obtain rfl := ((judged hjwt).1 payload hverified.2.2).1
  obtain rfl : u = u' := Claim.uuid.inj (Option.some.inj hsubject)
  exact ⟨rfl, Option.some.inj (hrow'.symm.trans hrow)⟩

/-- A request with a token of `u` that has been verified ends well or breaks. -/
theorem judged_of_verified (hjwt : config.Documented) {tokenType : TokenType} {t t' : Int}
    {payload : Payload} {good : Response → Prop}
    (h : Verified config i (config.token u row tokenType t) tokenType payload t' s)
    (hresult : Granted config i s good result) : Judged config i s tokenType t good result :=
  ⟨t', h.1, h.2.1, Or.inl ⟨((judged hjwt).1 payload h.2.2).2, hresult⟩⟩

/-- What a request with a token of `u` ends with when it loads no user. -/
abbrev Denied (config : Config) (i : Nat) (u : Uuid) (row : UserRow) (token : String)
    (tokenType : TokenType) (error : HandlerError) (s : State) : Prop :=
  ∀ t, token = config.token u row tokenType t →
    Judged config i s tokenType t (fun _ => False) (.error error)

theorem loads_lasting (hjwt : config.Documented) (token : String) (tokenType : TokenType) :
    Loads config (lasting config u row n) i (Denied config i u row token tokenType) token
      tokenType where
  refused s t' error _ ht' hle hverdict t heq := by
    subst heq
    obtain ⟨rfl, hexpired⟩ := (judged hjwt).2 error hverdict
    exact ⟨t', ht', hle, Or.inr ⟨hexpired, rfl⟩⟩
  unknown s payload t' hinv hverified hnone t heq := by
    subst heq
    rw [((judged hjwt).1 payload hverified.2.2).1, userOf_claimsOf hinv.2] at hnone
    cases hnone
  incomparable s payload t' _ hverified hnot t heq := by
    subst heq
    rw [((judged hjwt).1 payload hverified.2.2).1] at hnot
    obtain ⟨claim, hclaim, hother⟩ := hnot
    exact absurd (Option.some.inj hclaim).symm (hother u)
  breaks payload t' error s hverified hbroken t heq := by
    subst heq
    exact judged_of_verified hjwt hverified (.failed hbroken)

theorem lastsAfter_refresh (hjwt : config.Documented) (token : String) :
    LastsAfter config u row n i (.refresh token) := by
  refine Discipline.Triple.mono (does_refreshToken (over_lasting config u row n)
      (loads_lasting hjwt token .refresh))
    (fun s _ h => ⟨h, trivial⟩) fun result s hinv h =>
      ⟨fun _ heq => (by cases heq), fun _ heq => (by cases heq), fun t heq => ?_,
        fun t response heq hok => ?_⟩
  · cases heq
    cases result with
    | ok response =>
        obtain ⟨u', row', t', ht', hvouched, _, rfl⟩ := h
        obtain ⟨rfl, rfl⟩ := hvouched.user hjwt hinv.2
        obtain ⟨_, payload, t₁, hverified, _⟩ := hvouched
        exact judged_of_verified hjwt hverified (.good ⟨t', ht', rfl⟩)
    | error error => exact (h t rfl).grows (.refl s) fun _ h => h.elim
  · subst hok
    obtain ⟨u', row', _, _, ⟨_, payload, t', hverified, _⟩, _⟩ := h
    rcases heq with heq | heq
    · cases heq
    · cases heq
      exact verdict_mixed hjwt (by decide) t t' payload hverified.2.2

theorem lastsAfter_bearer (hjwt : config.Documented) (credentials : Option String) :
    LastsAfter config u row n i (.bearer credentials) := by
  have hstrip : ∀ {tokenType t}, strip (config.token u row tokenType t) =
      config.token u row tokenType t := (hjwt.compact _ _).1
  refine Discipline.Triple.mono (does_bearer (R := fun error s => ∀ value,
      credentials = some value → Denied config i u row (strip value) .access error s)
      (over_lasting config u row n) (fun hnone s value hvalue t heq => ?_)
      fun value hvalue => ?_)
    (fun s _ h => ⟨h, trivial⟩) fun result s hinv h =>
      ⟨fun _ heq => (by cases heq), fun t heq => ?_, fun _ heq => (by cases heq),
        fun t response heq hok => ?_⟩
  · -- a header without a token has no token of `u`
    have hempty : value = "" := by simpa [hvalue, Option.filter_eq_none_iff] using hnone
    rw [hempty] at heq
    exact absurd heq.symm (hjwt.compact _ _).2
  · have hloads : Loads config (lasting config u row n) i
        (Denied config i u row (strip value) .access) (strip value) .access :=
      loads_lasting hjwt (strip value) .access
    exact ⟨fun s t error hinv ht hle hverdict value' hvalue' => by
        obtain rfl := Option.some.inj (hvalue.symm.trans hvalue')
        exact hloads.refused s t error hinv ht hle hverdict,
      fun s payload t hinv hverified hnone value' hvalue' => by
        obtain rfl := Option.some.inj (hvalue.symm.trans hvalue')
        exact hloads.unknown s payload t hinv hverified hnone,
      fun s payload t hinv hverified hnot value' hvalue' => by
        obtain rfl := Option.some.inj (hvalue.symm.trans hvalue')
        exact hloads.incomparable s payload t hinv hverified hnot,
      fun payload t error s hverified hbroken value' hvalue' => by
        obtain rfl := Option.some.inj (hvalue.symm.trans hvalue')
        exact hloads.breaks payload t error s hverified hbroken⟩
  · cases heq
    cases result with
    | ok response =>
        obtain ⟨u', row', value, rfl, hvalue, hvouched⟩ := h
        cases hvalue
        rw [hstrip] at hvouched
        obtain ⟨rfl, rfl⟩ := hvouched.user hjwt hinv.2
        obtain ⟨_, payload, t', hverified, _⟩ := hvouched
        exact judged_of_verified hjwt hverified (.good rfl)
    | error error => exact (h _ rfl t hstrip).grows (.refl s) fun _ h => h.elim
  · subst hok
    obtain ⟨u', row', value, _, hvalue, _, payload, t', hverified, _⟩ := h
    rcases heq with heq | heq
    · cases heq
      cases hvalue
      rw [hstrip] at hverified
      exact verdict_mixed hjwt (by decide) t t' payload hverified.2.2
    · cases heq

theorem lasting_service (hjwt : config.Documented) (u : Uuid) (row : UserRow) (n : Nat) :
    Discipline.Lasting (service config) (discipline config) n
      (fun s => s.db.rows.lookup u = some row)
      (Lasts config u row) where
  guarantee _ _ _ _ _ hguarantee h := hguarantee.grows.users u row h
  close _ _ _ h := h
  outside elapsed s s' hchange _ h := by
    simp only [service, Option.some.injEq] at hchange
    subst hchange
    exact h
  guarantee_later _ _ _ _ _ _ _ _ _ hguarantee h := h.grows hguarantee.grows
  close_later request i _ _ hinv h := h.grows (hinv.rollback config request i).2.grows
  later_stable _ _ _ _ _ _ hrely h := h.grows hrely.1
  later_safe request i _ := by
    cases request with
    | register payload => exact lastsAfter_register payload
    | login payload => exact lastsAfter_login payload
    | refresh token => exact lastsAfter_refresh hjwt token
    | bearer credentials => exact lastsAfter_bearer hjwt credentials

theorem lasts_later (hjwt : config.Documented)
    (hfirst : (discipline config).Holds (service config) first)
    (hrow : first.shared.db.rows.lookup u = some row) {allowed : AuthPool → AuthEvent → Prop}
    (hsteps : (service config).Steps allowed first final) {i : Nat} {request : Request}
    {result : Except HandlerError Response} (hi : first.threads.length ≤ i)
    (hanswered : final.Answered i request result) :
    Lasts config u row request i result final.shared :=
  Discipline.later_answers (lasting_service hjwt u row _) (sound config) hfirst rfl hrow
    (hsteps.mono fun pool event _ => allowed_any pool event) hi hanswered

/-- What the clock has shown by the end of a run. -/
theorem readings_steps (h : (discipline config).Holds (service config) first)
    {allowed : AuthPool → AuthEvent → Prop} (hsteps : (service config).Steps allowed first final)
    {i : Nat} {t : Int} (hreading : (i, t) ∈ final.shared.readings) :
    (i, t) ∈ first.shared.readings ∨ first.shared.clock ≤ t := by
  induction hsteps with
  | refl => exact Or.inl hreading
  | tail event hsteps' _ hnext ih =>
      rcases (advances_of_next (holds_steps h hsteps') hnext).readings i t hreading with
        hold | ⟨rfl, _⟩
      · exact ih hold
      · exact Or.inr (grows_steps h hsteps').clock

/-- Only requests that have started have read the clock. -/
theorem started_steps (husers : UniqueEmails users)
    (hsteps : (service config).Steps Service.anyStep (start users clock) first) {i : Nat} {t : Int}
    (hreading : (i, t) ∈ first.shared.readings) : i < first.threads.length := by
  have hstart : (discipline config).Holds (service config) (start users clock) :=
    holds_start husers clock
  induction hsteps with
  | refl => cases hreading
  | @tail middle final event hsteps' _ hnext ih =>
      have hbefore : i < middle.threads.length := by
        rcases (advances_of_next (holds_steps hstart hsteps') hnext).readings i t hreading with
          hold | ⟨_, hlt⟩
        · exact ih hold
        · exact hlt
      obtain ⟨after, hafter, _⟩ := Service.thread_kept hnext (List.getElem?_eq_getElem hbefore)
      exact Service.lt_length_of_getElem hafter

/-- From a state in which `u` is stored on, whatever other requests come: a login with the
    password of `u` gets tokens; an access token of `u` is served until it expires and a
    refresh token gets a new access token until it expires, unless the request breaks, and
    from then on they are refused; and neither is taken for the other. A request verifies
    its token after it has started. -/
theorem sessions_last (hjwt : config.Documented) (husers : UniqueEmails users)
    (hreachable : (service config).Steps Service.anyStep (start users clock) first)
    (hrow : first.shared.db.rows.lookup u = some row)
    (hsteps : (service config).Steps Service.anyStep first final) {i : Nat} {request : Request}
    {result : Except HandlerError Response} (hi : first.threads.length ≤ i)
    (hanswered : final.Answered i request result) :
    Lasts config u row request i result final.shared ∧
      ∀ t, (i, t) ∈ final.shared.readings → first.shared.clock ≤ t := by
  have hfirst := holds_steps (holds_start husers clock) hreachable
  refine ⟨lasts_later hjwt hfirst hrow hsteps hi hanswered, fun t hreading => ?_⟩
  rcases readings_steps hfirst hsteps hreading with hold | hnew
  · exact absurd (started_steps husers hreachable hold) (Nat.not_lt.mpr hi)
  · exact hnew

/-- Once `register` has answered, its user is stored for good, nobody else has the email,
    and every later login with the same email and password gets tokens of that user,
    unless the request breaks. -/
theorem registered_can_log_in (hjwt : config.Documented)
    (hpasslib : config.pwdContext.Documented) (husers : UniqueEmails users)
    (hreachable : (service config).Steps Service.anyStep (start users clock) first) {j : Nat}
    {payload : AuthRegisterRequest} {response : Response}
    (hregistered : first.Answered j (.register payload) (.ok response))
    (hsteps : (service config).Steps Service.anyStep first final) :
    ∃ u row, response = .registered u payload.email (payload.role.getD .user) ∧
      final.shared.db.rows.lookup u = some row ∧ row.email = payload.email ∧
      (∀ id row', final.shared.db.rows.lookup id = some row' → row'.email = payload.email →
        id = u) ∧
      ∀ i login result, first.threads.length ≤ i → final.Answered i (.login login) result →
        login.email = payload.email → login.password = payload.password →
          Granted config i final.shared (fun response => ∃ t₁ t₂,
            (i, t₁) ∈ final.shared.readings ∧ (i, t₂) ∈ final.shared.readings ∧ response =
            .tokens (config.token u row .access t₁) (config.token u row .refresh t₂)) result := by
  have hfirst := holds_steps (holds_start husers clock) hreachable
  obtain ⟨u, row, salt, hresponse, hrow, hemail, hrole, hhash⟩ :=
    hfirst.answered j _ _ hregistered response rfl
  have hpassword := hpasslib salt payload.password _ hhash
  have hrow' := (grows_steps hfirst hsteps).users u row hrow
  have hfinal : Stored final.shared := (holds_steps hfirst hsteps).inv
  refine ⟨u, row, ?_, hrow', hemail, fun id row' hid hsame => ?_, fun i login result hi hanswered
    hlogin hsame => ?_⟩
  · rw [hresponse, hemail, hrole]
  · exact (hfinal.unique_email hrow' hid (hsame.trans hemail.symm)).1
  · refine (lasts_later hjwt hfirst hrow hsteps hi hanswered).login login rfl
      (hlogin.trans hemail.symm) ?_
    rw [hsame]
    exact hpassword

/-! ## Sample libraries -/

namespace Sample

open Calendar (decimal number number_decimal digit_digitChar)

/-- The digits of a number, with a comma behind. -/
def field (n : Nat) : List Char := decimal (n.log2 + 1) n ++ [',']

def readField (cs : List Char) : Option (Nat × List Char) :=
  match cs.dropWhile Char.isDigit with
  | ',' :: rest => (number (cs.takeWhile Char.isDigit)).map fun n => (n, rest)
  | _ => none

theorem isDigit_decimal (width n : Nat) : ∀ c ∈ decimal width n, c.isDigit = true := by
  induction width generalizing n with
  | zero =>
      intro c hc
      cases hc
  | succ width ih =>
      intro c hc
      rcases List.mem_append.mp hc with hc | hc
      · exact ih _ c hc
      · rw [List.mem_singleton.mp hc]
        exact (digit_digitChar (Nat.mod_lt n (by decide))).1

theorem readField_field (n : Nat) (rest : List Char) :
    readField (field n ++ rest) = some (n, rest) := by
  have hdigits := isDigit_decimal (n.log2 + 1) n
  have hnumber : number (decimal (n.log2 + 1) n) = some n := by
    apply number_decimal
    calc n < 2 ^ (n.log2 + 1) := Nat.lt_log2_self
      _ ≤ 10 ^ (n.log2 + 1) := Nat.pow_le_pow_left (by decide) _
  simp only [readField, field, List.append_assoc, List.singleton_append]
  rw [List.dropWhile_append_of_pos hdigits, List.takeWhile_append_of_pos hdigits,
    List.dropWhile_cons_of_neg (by decide), List.takeWhile_cons_of_neg (by decide),
    List.append_nil]
  simp only [hnumber, Option.map_some]

def intCode : Int → Nat
  | .ofNat n => 2 * n
  | .negSucc n => 2 * n + 1

def codeInt (n : Nat) : Int := if n % 2 = 0 then .ofNat (n / 2) else .negSucc (n / 2)

theorem codeInt_intCode (n : Int) : codeInt (intCode n) = n := by
  cases n with
  | ofNat n =>
      rw [intCode, codeInt, if_pos (by omega), Nat.mul_div_cancel_left n (by decide)]
  | negSucc n =>
      have hdiv : (2 * n + 1) / 2 = n := by omega
      rw [intCode, codeInt, if_neg (by omega), hdiv]

def roleCode : UserRole → Nat
  | .user => 0
  | .seller => 1
  | .admin => 2

def codeRole : Nat → UserRole
  | 0 => .user
  | 1 => .seller
  | _ => .admin

def typeCode : TokenType → Nat
  | .access => 0
  | .refresh => 1

def codeType : Nat → TokenType
  | 0 => .access
  | _ => .refresh

theorem codeRole_roleCode (role : UserRole) : codeRole (roleCode role) = role := by
  cases role <;> rfl

theorem codeType_typeCode (tokenType : TokenType) : codeType (typeCode tokenType) = tokenType := by
  cases tokenType <;> rfl

/-- The five fields of the claims of a token. -/
structure Fields where
  subject : Uuid
  role : UserRole
  tokenType : TokenType
  issued : Int
  expires : Int

def Fields.claims (f : Fields) : Payload :=
  Auth.claims f.subject f.role f.tokenType f.issued f.expires

def valueRole (value : String) : UserRole :=
  if value = "USER" then .user else if value = "SELLER" then .seller else .admin

def valueType (value : String) : TokenType := if value = "access" then .access else .refresh

def fieldsOf (payload : Payload) : Option Fields :=
  match payload.get? "sub", payload.get? "role", payload.get? "type", payload.get? "iat",
      payload.get? "exp" with
  | some (.uuid subject), some (.text role), some (.text tokenType), some (.number issued),
      some (.number expires) =>
        some ⟨subject, valueRole role, valueType tokenType, issued, expires⟩
  | _, _, _, _, _ => none

theorem fieldsOf_claims (f : Fields) : fieldsOf f.claims = some f := by
  obtain ⟨subject, role, tokenType, issued, expires⟩ := f
  cases role <;> cases tokenType <;> rfl

def text (f : Fields) (key : String) : List Char :=
  field f.subject ++ field (roleCode f.role) ++ field (typeCode f.tokenType) ++
    field (intCode f.issued) ++ field (intCode f.expires) ++ key.toList ++ ['.']

def read (cs : List Char) : Option (Fields × List Char) := do
  let (subject, cs) ← readField cs
  let (role, cs) ← readField cs
  let (tokenType, cs) ← readField cs
  let (issued, cs) ← readField cs
  let (expires, cs) ← readField cs
  return (⟨subject, codeRole role, codeType tokenType, codeInt issued, codeInt expires⟩, cs)

theorem read_text (f : Fields) (key : String) :
    read (text f key) = some (f, key.toList ++ ['.']) := by
  simp [read, text, List.append_assoc, readField_field, codeRole_roleCode, codeType_typeCode,
    codeInt_intCode]

/-- Tokens that are not encrypted and not signed, but show their key. -/
def jwt : Jwt where
  encode payload key := String.ofList (match fieldsOf payload with
    | some f => text f key
    | none => ['?'])
  decode token key now :=
    match read token.toList with
    | some (f, rest) =>
        if rest = key.toList ++ ['.'] then
          if now ≤ f.expires then .ok f.claims else .error .expired
        else .error .invalid
    | none => .error .invalid

theorem decode_text (f : Fields) (key key' : String) (now : Int) :
    jwt.decode (String.ofList (text f key)) key' now =
      if key = key' then if now ≤ f.expires then .ok f.claims else .error .expired
      else .error .invalid := by
  simp only [jwt, String.toList_ofList, read_text, List.append_cancel_right_eq]
  by_cases hkey : key = key'
  · rw [hkey, if_pos rfl, if_pos rfl]
  · rw [if_neg hkey, if_neg fun h => hkey (String.toList_inj.mp h)]

theorem encode_some {payload : Payload} {f : Fields} (h : fieldsOf payload = some f)
    (key : String) : jwt.encode payload key = String.ofList (text f key) := by
  simp only [jwt, h]

theorem encode_none {payload : Payload} (h : fieldsOf payload = none) (key : String) :
    jwt.encode payload key = "?" := by
  simp only [jwt, h]

theorem strip_of_ends {first last : Char} {cs : List Char} (hfirst : isSpace first = false)
    (hlast : isSpace last = false) :
    strip (String.ofList (first :: cs ++ [last])) = String.ofList (first :: cs ++ [last]) := by
  rw [strip, String.toList_ofList, List.cons_append,
    List.dropWhile_cons_of_neg (Bool.eq_false_iff.mp hfirst), ← List.cons_append,
    List.reverse_append, List.reverse_singleton, List.singleton_append,
    List.dropWhile_cons_of_neg (Bool.eq_false_iff.mp hlast), List.reverse_cons,
    List.reverse_reverse]

theorem isSpace_of_isDigit {c : Char} (h : c.isDigit = true) : isSpace c = false := by
  have hrange : 48 ≤ c.toNat ∧ c.toNat ≤ 57 := by
    simpa [Char.isDigit, UInt32.le_iff_toNat_le] using h
  have hne : c.toNat ≠ 0x20 ∧ c.toNat ≠ 0x85 ∧ c.toNat ≠ 0xA0 ∧ c.toNat ≠ 0x1680 ∧
      c.toNat ≠ 0x2028 ∧ c.toNat ≠ 0x2029 ∧ c.toNat ≠ 0x202F ∧ c.toNat ≠ 0x205F ∧
      c.toNat ≠ 0x3000 := by omega
  simp only [isSpace, List.contains_eq_mem, List.mem_cons, List.not_mem_nil, hne, or_self,
    decide_false, Bool.false_or, Bool.or_eq_false_iff, decide_eq_false_iff_not]
  omega

theorem exists_text (f : Fields) (key : String) :
    ∃ first cs, isSpace first = false ∧ text f key = first :: cs ++ ['.'] := by
  have hne : field f.subject ≠ [] := by simp [field]
  obtain ⟨first, cs, hfield⟩ := List.exists_cons_of_ne_nil hne
  refine ⟨first, cs ++ field (roleCode f.role) ++ field (typeCode f.tokenType) ++
    field (intCode f.issued) ++ field (intCode f.expires) ++ key.toList, ?_, ?_⟩
  · rcases List.mem_append.mp (hfield ▸ List.mem_cons_self : first ∈ field f.subject) with h | h
    · exact isSpace_of_isDigit (isDigit_decimal _ _ first h)
    · rw [List.mem_singleton.mp h]
      rfl
  · simp only [text, hfield, List.cons_append, List.append_assoc]

theorem jwt_decode_encode (f : Fields) (key : String) (now : Int) :
    jwt.decode (jwt.encode f.claims key) key now =
      if now ≤ f.expires then .ok f.claims else .error .expired := by
  rw [encode_some (fieldsOf_claims f), decode_text, if_pos rfl]

theorem jwt_decode_other (payload : Payload) {key key' : String} (now : Int) (hne : key ≠ key') :
    jwt.decode (jwt.encode payload key) key' now = .error .invalid := by
  cases hfields : fieldsOf payload with
  | some f => rw [encode_some hfields, decode_text, if_neg hne]
  | none =>
      rw [encode_none hfields]
      rfl

theorem jwt_expiry {token key : String} {now expires : Int} {payload : Payload}
    (hdecode : jwt.decode token key now = .ok payload)
    (hexp : payload.get? "exp" = some (.number expires)) : now ≤ expires := by
  simp only [jwt] at hdecode
  split at hdecode
  · split at hdecode
    · split at hdecode
      · rename_i hle
        cases hdecode
        cases hexp
        exact hle
      · cases hdecode
    · cases hdecode
  · cases hdecode

theorem jwt_compact (payload : Payload) (key : String) :
    strip (jwt.encode payload key) = jwt.encode payload key ∧ jwt.encode payload key ≠ "" := by
  cases hfields : fieldsOf payload with
  | some f =>
      obtain ⟨first, cs, hfirst, htext⟩ := exists_text f key
      rw [encode_some hfields, htext]
      refine ⟨strip_of_ends hfirst rfl, fun h => ?_⟩
      have hlist := congrArg String.toList h
      simp at hlist
  | none =>
      rw [encode_none hfields]
      exact ⟨by decide, by decide⟩

/-- Passwords are stored as they are. -/
def passlib : PwdContext where
  hash _ password := some password
  verify password hashed := decide (password = hashed)

theorem passlib_documented : passlib.Documented := by
  intro salt password hashed hhash
  obtain rfl := Option.some.inj hhash
  exact decide_eq_true rfl

def settings : Config := ⟨"access key", "refresh key", 30, 14, jwt, passlib⟩

theorem documented_of_jwt {config : Config} (h : config.jwt = jwt) : config.Documented where
  decode_encode subject role tokenType secret issued expires now := by
    have hdecode := jwt_decode_encode ⟨subject, role, tokenType, issued, expires⟩
      (config.secret secret) now
    simp only [Fields.claims] at hdecode
    rw [h, hdecode]
  decode_other payload tokenType tokenType' now hne := by
    rw [h]
    exact jwt_decode_other payload now hne
  expiry token key now payload expires hdecode hexp := by
    rw [h] at hdecode
    exact jwt_expiry hdecode hexp
  compact payload key := by
    rw [h]
    exact jwt_compact payload key

theorem settings_documented : settings.Documented := documented_of_jwt rfl

theorem no_users : UniqueEmails ∅ := by
  intro id id' row row' hrow
  rw [AList.lookup_empty] at hrow
  cases hrow

/-- The token presented is one that the service has signed. -/
def presentsSigned (pool : AuthPool) : AuthEvent → Bool
  | .start request => request.token?.all fun token => pool.shared.signed.any fun signed =>
      (fieldsOf signed.payload).any fun f => decide (signed.payload = f.claims ∧
        signed.key = settings.secret f.tokenType ∧ token = settings.jwt.encode f.claims signed.key)
  | _ => true

theorem unforged_of_presentsSigned (pool : AuthPool) (event : AuthEvent)
    (h : presentsSigned pool event = true) : Unforged settings pool event := by
  cases event with
  | start request =>
      intro token htoken
      simp only [presentsSigned, htoken, Option.all_some] at h
      obtain ⟨signed, hsigned, hany⟩ := List.any_eq_true.mp h
      obtain ⟨f, _, hf⟩ := (Option.any_eq_true _ _).mp hany
      obtain ⟨hpayload, hkey, rfl⟩ := of_decide_eq_true hf
      obtain ⟨i, key, payload, time⟩ := signed
      obtain rfl : payload = f.claims := hpayload
      obtain rfl : key = settings.secret f.tokenType := hkey
      exact genuine_of_signed settings_documented hsigned
  | _ => trivial

def alice : AuthRegisterRequest := ⟨"alice@example.com", "secret", none, by decide, by decide⟩

def aliceLogin : AuthLoginRequest := ⟨"alice@example.com", "secret", by decide, by decide⟩

def aliceRow : UserRow := ⟨"alice@example.com", "secret", .user⟩

def steps (i n : Nat) : List AuthEvent := List.replicate n (.step i (.proceed 1 ""))

/-- Alice registers, ... -/
def registering : List AuthEvent := .start (.register alice) :: steps 0 6

/-- logs in, ... -/
def loggingIn : List AuthEvent := .start (.login aliceLogin) :: steps 1 6

/-- refreshes the access token after an hour, and uses the new one after ten minutes. -/
def refreshing : List AuthEvent :=
  .outside 3600000000 :: .start (.refresh (settings.token 1 aliceRow .refresh 0)) ::
    steps 2 5 ++ .outside 600000000 ::
      .start (.bearer (some (settings.token 1 aliceRow .access 3600000000))) :: steps 3 3

/-- Request `i` has been answered so. -/
def served (pool : AuthPool) (i : Nat) (request : Request) (response : Response) : Bool :=
  match pool.answer? i with
  | some (answered, .ok answer) => decide (answered = request ∧ answer = response)
  | _ => false

theorem answered_of_served {pool : AuthPool} {i : Nat} {request : Request}
    {response : Response} (h : served pool i request response = true) :
    pool.Answered i request (.ok response) := by
  unfold served at h
  split at h
  · rename_i heq
    obtain ⟨rfl, rfl⟩ := of_decide_eq_true h
    exact Service.answered_of_answer? heq
  · cases h

end Sample

open Sample in
theorem sessions_from_logins_sample : ∃ pool : AuthPool,
    (service settings).run (start ∅ 0) (registering ++ loggingIn ++ refreshing) = some pool ∧
      ∃ u row value payload t, Response.current 1 .user = .current u row.role ∧
        some (settings.token 1 aliceRow .access 3600000000) = some value ∧
        Accepted settings pool 3 (strip value) .access payload t ∧
        FromLogin settings pool u row payload t := by
  have hpasses : (service settings).passes presentsSigned (start ∅ 0)
      (registering ++ loggingIn ++ refreshing) = true := by decide +kernel
  obtain ⟨pool, hrun, hserved⟩ := Service.exists_run (fun pool : AuthPool =>
      served pool 3 (.bearer (some (settings.token 1 aliceRow .access 3600000000)))
        (.current 1 .user) = true)
    (show (((service settings).run (start ∅ 0)
      (registering ++ loggingIn ++ refreshing)).any _) = true by decide +kernel)
  exact ⟨pool, hrun, sessions_from_logins settings_documented no_users
    (.of_run_checked presentsSigned unforged_of_presentsSigned _ hpasses hrun)
    (answered_of_served hserved)⟩

open Sample in
theorem registered_can_log_in_sample : ∃ first final : AuthPool,
    (service settings).run (start ∅ 0) registering = some first ∧
      (service settings).run first loggingIn = some final ∧
      ∃ u row, Response.registered 1 "alice@example.com" .user =
          .registered u alice.email (alice.role.getD .user) ∧
        final.shared.db.rows.lookup u = some row ∧ row.email = alice.email ∧
        Granted settings 1 final.shared (fun response => ∃ t₁ t₂,
          (1, t₁) ∈ final.shared.readings ∧ (1, t₂) ∈ final.shared.readings ∧ response =
          .tokens (settings.token u row .access t₁) (settings.token u row .refresh t₂))
          (.ok (.tokens (settings.token 1 aliceRow .access 0)
            (settings.token 1 aliceRow .refresh 0))) := by
  obtain ⟨first, hfirst, ⟨hregistered, hlength⟩, hlogin⟩ := Service.exists_run
    (fun first : AuthPool => (served first 0 (.register alice)
        (.registered 1 "alice@example.com" .user) = true ∧ first.threads.length ≤ 1) ∧
      ((service settings).run first loggingIn).any (fun final =>
        served final 1 (.login aliceLogin) (.tokens (settings.token 1 aliceRow .access 0)
          (settings.token 1 aliceRow .refresh 0))) = true)
    (show (((service settings).run (start ∅ 0) registering).any _) = true by decide +kernel)
  obtain ⟨final, hfinal, hserved⟩ := (Option.any_eq_true _ _).mp hlogin
  obtain ⟨u, row, hresponse, hrow, hemail, _, hlogins⟩ := registered_can_log_in settings_documented
    passlib_documented no_users (.of_run _ hfirst) (answered_of_served hregistered)
    (.of_run _ hfinal)
  exact ⟨first, final, hfirst, hfinal, u, row, hresponse, hrow, hemail,
    hlogins 1 aliceLogin _ hlength (answered_of_served hserved) rfl rfl⟩

open Sample in
theorem sessions_last_sample : ∃ first final : AuthPool,
    (service settings).run (start ∅ 0) registering = some first ∧
      (service settings).run first (loggingIn ++ refreshing) = some final ∧
      Lasts settings 1 aliceRow (.bearer (some (settings.token 1 aliceRow .access 3600000000))) 3
        (.ok (.current 1 .user)) final.shared ∧
      ∀ t, (3, t) ∈ final.shared.readings → first.shared.clock ≤ t := by
  obtain ⟨first, hfirst, ⟨hrow, hlength⟩, hrest⟩ := Service.exists_run
    (fun first : AuthPool => (first.shared.db.rows.lookup 1 = some aliceRow ∧
        first.threads.length ≤ 3) ∧
      ((service settings).run first (loggingIn ++ refreshing)).any (fun final =>
        served final 3 (.bearer (some (settings.token 1 aliceRow .access 3600000000)))
          (.current 1 .user)) = true)
    (show (((service settings).run (start ∅ 0) registering).any _) = true by decide +kernel)
  obtain ⟨final, hfinal, hserved⟩ := (Option.any_eq_true _ _).mp hrest
  exact ⟨first, final, hfirst, hfinal, sessions_last settings_documented no_users
    (.of_run _ hfirst) hrow (.of_run _ hfinal) hlength (answered_of_served hserved)⟩

end SoaHomework.Marketplace.Auth
