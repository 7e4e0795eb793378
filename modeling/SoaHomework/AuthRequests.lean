import SoaHomework.AuthService
import SoaHomework.LaterRequests

/-!
# What the authentication requests do

No row of `users` is ever changed or deleted, the clock does not go back, and what
has been signed stays signed (`Grows`). A request signs a token only for a user whose
password a login has presented, or of whom a verified refresh token tells (`Issued`).
The rules of the handlers hold under this discipline and under any fact that lasts.
-/

namespace SoaHomework.Marketplace.Auth

open StatementProgram

variable {config : Config} {request : Request} {i : Nat} {s s' s'' : State}

/-! ## The discipline -/

structure Grows (s s' : State) : Prop where
  users : ∀ id row, s.db.rows.lookup id = some row → s'.db.rows.lookup id = some row
  clock : s.clock ≤ s'.clock
  signed : ∀ token ∈ s.signed, token ∈ s'.signed
  readings : ∀ reading ∈ s.readings, reading ∈ s'.readings
  failures : ∀ j ∈ s.failures, j ∈ s'.failures

theorem Grows.refl (s : State) : Grows s s :=
  ⟨fun _ _ h => h, Int.le_refl _, fun _ h => h, fun _ h => h, fun _ h => h⟩

theorem Grows.trans (h : Grows s s') (h' : Grows s' s'') : Grows s s'' where
  users id row hrow := h'.users id row (h.users id row hrow)
  clock := Int.le_trans h.clock h'.clock
  signed token htoken := h'.signed token (h.signed token htoken)
  readings reading hreading := h'.readings reading (h.readings reading hreading)
  failures j hj := h'.failures j (h.failures j hj)

/-- Emails are unique, and uncommitted rows are new. -/
structure Stored (s : State) : Prop where
  consistent : s.db.Consistent emailIndex
  fresh : ∀ i id, id ∈ s.db.pending i → id ∉ s.db.rows

/-- The claims of a token for a stored user that is issued at `t`. -/
def Config.claimsOf (config : Config) (subject : Uuid) (row : UserRow) (tokenType : TokenType)
    (t : Int) : Payload :=
  claims subject row.role tokenType (timestamp t) (timestamp (t + config.lifetime tokenType))

/-- How `verify_token` judges a token at `t`. -/
def Config.verdict (config : Config) (token : String) (tokenType : TokenType) (t : Int) :
    Except ApiError Payload :=
  match config.jwt.decode token (config.secret tokenType) (seconds t) with
  | .error .expired => .error ⟨tokenType.expiredCode, 401, "Token expired", .none⟩
  | .error .invalid => .error ⟨tokenType.invalidCode, 401, "Token invalid", .none⟩
  | .ok payload =>
      if payload.get? "type" = some (.text tokenType.value) then .ok payload
      else .error ⟨tokenType.invalidCode, 401, "Token type mismatch", .none⟩

/-- The credentials of the login are those of a stored user. -/
structure Authentic (config : Config) (payload : AuthLoginRequest) (u : Uuid) (row : UserRow)
    (s : State) : Prop where
  stored : s.db.rows.lookup u = some row
  email : row.email = payload.email
  password : config.pwdContext.verify payload.password row.hashedPassword = true

/-- Why request `i` has signed the token. The times are those that the clock has shown to
    the request: `t₁` when it verified the refresh token, `t` when it made the claims. -/
inductive Issued (config : Config) (i : Nat) (s : State) (token : Signed) : Request → Prop where
  | login {payload} (u : Uuid) (row : UserRow) (tokenType : TokenType) (t : Int)
      (hauthentic : Authentic config payload u row s) (ht : (i, t) ∈ s.readings)
      (htime : t ≤ token.time)
      (htoken : token = ⟨i, config.secret tokenType, config.claimsOf u row tokenType t,
        token.time⟩) :
      Issued config i s token (.login payload)
  | refresh {refreshToken} (u : Uuid) (row : UserRow) (payload : Payload) (t₁ t : Int)
      (hstored : s.db.rows.lookup u = some row)
      (hverdict : config.verdict refreshToken .refresh t₁ = .ok payload)
      (hsubject : payload.get? "sub" = some (.uuid u)) (ht₁ : (i, t₁) ∈ s.readings)
      (ht : (i, t) ∈ s.readings) (hle : t₁ ≤ t) (htime : t ≤ token.time)
      (htoken : token = ⟨i, config.secret .access, config.claimsOf u row .access t,
        token.time⟩) :
      Issued config i s token (.refresh refreshToken)

theorem Issued.grows {token : Signed} (h : Issued config i s token request) (hgrows : Grows s s') :
    Issued config i s' token request := by
  cases h with
  | login u row tokenType t hauthentic ht htime htoken =>
      obtain ⟨hstored, hemail, hpassword⟩ := hauthentic
      exact .login u row tokenType t ⟨hgrows.users u row hstored, hemail, hpassword⟩
        (hgrows.readings _ ht) htime htoken
  | refresh u row payload t₁ t hstored hverdict hsubject ht₁ ht hle htime htoken =>
      exact .refresh u row payload t₁ t (hgrows.users u row hstored) hverdict hsubject
        (hgrows.readings _ ht₁) (hgrows.readings _ ht) hle htime htoken

/-- What an answer tells of the stored users. -/
def told (config : Config) (request : Request) (i : Nat)
    (result : Except HandlerError Response) (s : State) : Prop :=
  match request with
  | .register payload => ∀ response, result = .ok response → ∃ id row salt,
      response = .registered id row.email row.role ∧ s.db.rows.lookup id = some row ∧
        row.email = payload.email ∧ row.role = payload.role.getD .user ∧
        config.pwdContext.hash salt payload.password = some row.hashedPassword
  | .bearer credentials => ∀ response, result = .ok response → ∃ u row value payload t,
      response = .current u row.role ∧ s.db.rows.lookup u = some row ∧ credentials = some value ∧
        (i, t) ∈ s.readings ∧ config.verdict (strip value) .access t = .ok payload ∧
        payload.get? "sub" = some (.uuid u)
  | _ => True

theorem told_grows {result : Except HandlerError Response} (h : told config request i result s)
    (hgrows : Grows s s') : told config request i result s' := by
  cases request with
  | register payload =>
      intro response heq
      obtain ⟨id, row, salt, hresponse, hrow, hrest⟩ := h response heq
      exact ⟨id, row, salt, hresponse, hgrows.users id row hrow, hrest⟩
  | bearer credentials =>
      intro response heq
      obtain ⟨u, row, value, payload, t, hresponse, hrow, hvalue, ht, hrest⟩ := h response heq
      exact ⟨u, row, value, payload, t, hresponse, hgrows.users u row hrow, hvalue,
        hgrows.readings _ ht, hrest⟩
  | _ => trivial

structure Guarantee (config : Config) (request : Request) (i : Nat) (s s' : State) : Prop where
  grows : Grows s s'
  others : ∀ j, i ≠ j → RowStore.Keeps emailIndex j s.db s'.db
  signed : ∀ token ∈ s'.signed,
    token ∈ s.signed ∨ Issued config i s' token request ∧ token.time = s'.clock
  readings : ∀ reading ∈ s'.readings, reading ∈ s.readings ∨ reading = (i, s.clock)

def discipline (config : Config) : Discipline Statement HandlerError Response Request State where
  inv s := Stored s
  rely _ i s s' := Grows s s' ∧ RowStore.Keeps emailIndex i s.db s'.db
  guarantee := Guarantee config
  unused i s := s.db.Idle i
  compatible _ _ := True
  permitted _ _ _ _ := True
  known _ _ _ _ := True
  answer := told config

theorem guarantee_refl (s : State) : Guarantee config request i s s :=
  ⟨.refl s, fun j _ => RowStore.Keeps.refl j s.db, fun _ h => Or.inl h, fun _ h => Or.inl h⟩

/-! ## What a step keeps -/

theorem Stored.rollback (config : Config) (request : Request) (i : Nat) (h : Stored s) :
    Stored { s with db := s.db.rollback i } ∧
      Guarantee config request i s { s with db := s.db.rollback i } := by
  refine ⟨⟨RowStore.rollback_consistent i h.consistent, fun j id hid => ?_⟩,
    ⟨fun _ _ h => h, Int.le_refl _, fun _ h => h, fun _ h => h, fun _ h => h⟩,
    fun j hij => RowStore.rollback_keeps hij, fun _ h => Or.inl h, fun _ h => Or.inl h⟩
  by_cases hij : i = j
  · subst hij
    rw [RowStore.rollback, (RowStore.finish_idle s.db i s.db.rows).pending] at hid
    exact absurd hid (AList.notMem_empty id)
  · have hkeeps : RowStore.Keeps emailIndex j s.db (s.db.rollback i) :=
      RowStore.rollback_keeps hij
    rw [hkeeps.pending] at hid
    exact h.fresh j id hid

theorem Stored.commit (config : Config) (request : Request) (i : Nat) (h : Stored s) :
    Stored { s with db := s.db.commit i } ∧
      Guarantee config request i s { s with db := s.db.commit i } := by
  have hlookup : ∀ id row, s.db.rows.lookup id = some row →
      (s.db.commit i).rows.lookup id = some row := by
    intro id row hrow
    have hnew : id ∉ s.db.pending i := fun hid =>
      h.fresh i id hid (AList.lookup_isSome.mp (by rw [hrow]; rfl))
    rw [RowStore.commit_rows, AList.lookup_union_right hnew, hrow]
  refine ⟨⟨RowStore.commit_consistent i h.consistent, fun j id hid => ?_⟩,
    ⟨hlookup, Int.le_refl _, fun _ h => h, fun _ h => h, fun _ h => h⟩,
    fun j hij => RowStore.commit_keeps hij h.consistent, fun _ h => Or.inl h,
    fun _ h => Or.inl h⟩
  by_cases hij : i = j
  · subst hij
    rw [RowStore.commit, (RowStore.finish_idle s.db i _).pending] at hid
    exact absurd hid (AList.notMem_empty id)
  · have hkeeps := RowStore.commit_keeps hij h.consistent
    rw [hkeeps.pending] at hid
    rw [RowStore.commit_rows, AList.mem_union, not_or]
    refine ⟨fun hmem => hij ?_, h.fresh j id hid⟩
    have hlock := h.consistent.locked i id hmem
    rw [h.consistent.locked j id hid] at hlock
    exact (Option.some.inj hlock).symm

theorem Stored.insert (config : Config) (request : Request) (h : Stored s) {id : Uuid}
    {row : UserRow} {written : RowStore.Written UserRow} {db : Db}
    (hinsert : s.db.insert emailIndex i id row.email row = some (written, db)) :
    Stored { s with db := db } ∧ Guarantee config request i s { s with db := db } := by
  have hrows := RowStore.insert_rows hinsert
  refine ⟨⟨RowStore.insert_consistent rfl hinsert h.consistent, fun j id' hid => ?_⟩,
    ⟨fun _ _ hrow => by rwa [hrows], Int.le_refl _, fun _ h => h, fun _ h => h, fun _ h => h⟩,
    fun j hij => RowStore.insert_keeps hij hinsert, fun _ h => Or.inl h, fun _ h => Or.inl h⟩
  simp only [hrows]
  by_cases hij : i = j
  · subst hij
    rcases RowStore.insert_cases hinsert with ⟨_, rfl, _⟩ | ⟨s₁, s₂, hnew, _, _, hu, hk, _, rfl⟩
    · exact h.fresh i id' hid
    · rw [RowStore.put_pending, (RowStore.acquire_spec hk).2.1, (RowStore.acquire_spec hu).2.1,
        AList.mem_insert] at hid
      rcases hid with rfl | hid
      · exact hnew
      · exact h.fresh i id' hid
  · have hkeeps : RowStore.Keeps emailIndex j s.db db := RowStore.insert_keeps hij hinsert
    rw [hkeeps.pending] at hid
    exact h.fresh j id' hid

theorem Stored.sign (h : Stored s) {token : Signed} (hissued : Issued config i s token request)
    (htime : token.time = s.clock) :
    Stored { s with signed := s.signed ++ [token] } ∧
      Guarantee config request i s { s with signed := s.signed ++ [token] } := by
  have hgrows : Grows s { s with signed := s.signed ++ [token] } :=
    ⟨fun _ _ h => h, Int.le_refl _, fun _ h => List.mem_append_left _ h, fun _ h => h,
      fun _ h => h⟩
  refine ⟨⟨h.consistent, h.fresh⟩, hgrows, fun j _ => RowStore.Keeps.refl j s.db,
    fun token' htoken => ?_, fun _ h => Or.inl h⟩
  rcases List.mem_append.mp htoken with hold | hnew
  · exact Or.inl hold
  · rw [List.mem_singleton.mp hnew]
    exact Or.inr ⟨hissued.grows hgrows, htime⟩

/-- Reading the clock. -/
theorem Stored.read (config : Config) (request : Request) (i : Nat) (h : Stored s) :
    Stored { s with readings := s.readings ++ [(i, s.clock)] } ∧
      Guarantee config request i s { s with readings := s.readings ++ [(i, s.clock)] } := by
  refine ⟨⟨h.consistent, h.fresh⟩, ⟨fun _ _ h => h, Int.le_refl _, fun _ h => h,
    fun _ h => List.mem_append_left _ h, fun _ h => h⟩, fun j _ => RowStore.Keeps.refl j s.db,
    fun _ h => Or.inl h, fun reading hreading => ?_⟩
  rcases List.mem_append.mp hreading with hold | hnew
  · exact Or.inl hold
  · exact Or.inr (List.mem_singleton.mp hnew)

/-- A statement that fails. -/
theorem Stored.fail (config : Config) (request : Request) (i : Nat) (h : Stored s) :
    Stored { s with failures := s.failures ++ [i] } ∧
      Guarantee config request i s { s with failures := s.failures ++ [i] } :=
  ⟨⟨h.consistent, h.fresh⟩, ⟨fun _ _ h => h, Int.le_refl _, fun _ h => h, fun _ h => h,
    fun _ h => List.mem_append_left _ h⟩, fun j _ => RowStore.Keeps.refl j s.db,
    fun _ h => Or.inl h, fun _ h => Or.inl h⟩

/-! ## The rules of one request -/

/-- A discipline in which requests are verified as in `discipline`, perhaps knowing
    more of the state. -/
structure Over (config : Config)
    (D : Discipline Statement HandlerError Response Request State) : Prop where
  rely : ∀ request i s s', D.rely request i s s' → (discipline config).rely request i s s'
  stored : ∀ s, D.inv s → Stored s
  step : ∀ request i s s', D.inv s → Stored s' → Guarantee config request i s s' →
    D.inv s' ∧ D.guarantee request i s s'
  known : ∀ request i op s, D.known request i op s

/-- The program has a value, or the request ends with an error. -/
def Ends {α : Type} (value : α → State → Prop) (refused : HandlerError → State → Prop) :
    Except HandlerError α → State → Prop
  | .ok result, s => value result s
  | .error error, s => refused error s

abbrev Does {α : Type} (config : Config)
    (D : Discipline Statement HandlerError Response Request State) (request : Request) (i : Nat)
    (refused : HandlerError → State → Prop) (pre : State → Prop) (program : Handler α)
    (post : α → State → Prop) : Prop :=
  D.Triple (service config) request i pre program (Ends post refused)

/-- The transaction of the request has written nothing, and `P` holds. -/
def Quiet (i : Nat) (P : State → Prop) (s : State) : Prop := s.db.Idle i ∧ P s

/-- A fact that stays. -/
def Stays (P : State → Prop) : Prop := ∀ s s', Grows s s' → P s → P s'

/-- A statement of request `i` has failed, or the expiry of a token is no date. -/
def Broken (config : Config) (i : Nat) (s : State) : Prop :=
  i ∈ s.failures ∨ ∃ tokenType t, (i, t) ∈ s.readings ∧
    representable (t + config.lifetime tokenType) = false

theorem Broken.grows (h : Broken config i s) (hgrows : Grows s s') : Broken config i s' := by
  rcases h with hfailed | ⟨tokenType, t, ht, hrange⟩
  · exact Or.inl (hgrows.failures i hfailed)
  · exact Or.inr ⟨tokenType, t, hgrows.readings _ ht, hrange⟩

/-- What a request that breaks where `P` holds is known to end with. -/
def Breaks (config : Config) (i : Nat) (P : State → Prop) (R : HandlerError → State → Prop) :
    Prop :=
  ∀ error s, P s → Broken config i s → R (.db error) s

section Rules

variable {D : Discipline Statement HandlerError Response Request State}
  {R : HandlerError → State → Prop} {P : State → Prop} {α β : Type}

theorem does_ret {pre : State → Prop} {value : α} {post : α → State → Prop}
    (h : ∀ s, D.inv s → pre s → post value s) :
    Does config D request i R pre (.ret value) post :=
  Discipline.Triple.ret h

theorem does_refuse {pre : State → Prop} {error : ApiError} {post : α → State → Prop}
    (h : ∀ s, D.inv s → pre s → R (.api error) s) :
    Does config D request i R pre (.fail (.api error)) post :=
  Discipline.Triple.fail h

theorem does_bind {pre : State → Prop} {program : Handler α} {next : α → Handler β}
    (middle : α → State → Prop) {post : β → State → Prop}
    (h : Does config D request i R pre program middle)
    (hnext : ∀ value, Does config D request i R (middle value) (next value) post) :
    Does config D request i R pre (program >>= next) post :=
  Discipline.Triple.bind (Ends middle R) h hnext fun _ _ _ herror => herror

theorem does_mono {pre : State → Prop} {program : Handler α} {post post' : α → State → Prop}
    (h : Does config D request i R pre program post)
    (hpost : ∀ value s, D.inv s → post value s → post' value s) :
    Does config D request i R pre program post' := by
  refine Discipline.Triple.mono h (fun _ _ h => h) fun result s hinv hresult => ?_
  cases result with
  | ok value => exact hpost value s hinv hresult
  | error error => exact hresult

theorem stays_true : Stays fun _ => True := fun _ _ _ _ => trivial

theorem stable_quiet (hD : Over config D) (hP : Stays P) : D.Stable request i (Quiet i P) := by
  rintro s s' _ hrely ⟨hidle, hs⟩
  obtain ⟨hgrows, hkeeps⟩ := hD.rely request i s s' hrely
  exact ⟨hkeeps.idle hidle, hP s s' hgrows hs⟩

/-- A statement from a stable assertion. -/
theorem does_query (hD : Over config D) {statement : Statement} {pre : State → Prop}
    {middle : Result statement → State → Prop} (hstable : D.Stable request i pre)
    (hbreaks : statement.isSql = true → ∀ s, D.inv s → pre s →
      R (.db .failure) { s with failures := s.failures ++ [i] })
    (hexec : ∀ s generated salt answer s', D.inv s → pre s →
      proceed config i generated salt s statement = some (answer, s') →
        Stored s' ∧ Guarantee config request i s s' ∧
          Ends middle R (answer.mapError HandlerError.db) s') :
    Does config D request i R pre (query statement) middle := by
  refine Discipline.Triple.step
    (fun answer s => Ends middle R (answer.mapError HandlerError.db) s)
    hstable (fun s hinv hpre => ⟨hD.known request i statement s, fun _ choice answer s' hrun => ?_⟩)
    fun answer => ?_
  · cases choice with
    | proceed generated salt =>
        obtain ⟨hstored, hguarantee, hmiddle⟩ := hexec s generated salt answer s' hinv hpre hrun
        obtain ⟨hinv', hguarantee'⟩ := hD.step request i s s' hinv hstored hguarantee
        exact ⟨hinv', hguarantee', hmiddle⟩
    | failure =>
        simp only [service, execute, Option.ite_none_right_eq_some, Option.some.injEq,
          Prod.mk.injEq] at hrun
        obtain ⟨hsql, rfl, rfl⟩ := hrun
        obtain ⟨hstored, hguarantee⟩ := (hD.stored s hinv).fail config request i
        obtain ⟨hinv', hguarantee'⟩ := hD.step request i s _ hinv hstored hguarantee
        exact ⟨hinv', hguarantee', hbreaks hsql s hinv hpre⟩
  · cases answer with
    | ok value => exact Discipline.Triple.ret fun s _ h => h
    | error error => exact Discipline.Triple.fail fun s _ h => h

/-- A failed statement breaks its request. -/
theorem breaks_query (hP : Stays P) (hfails : Breaks config i P R) (s : State)
    (hpre : Quiet i P s) : R (.db .failure) { s with failures := s.failures ++ [i] } := by
  have hgrows : Grows s { s with failures := s.failures ++ [i] } :=
    ⟨fun _ _ h => h, Int.le_refl _, fun _ h => h, fun _ h => h,
      fun _ h => List.mem_append_left _ h⟩
  exact hfails .failure _ (hP s _ hgrows hpre.2)
    (Or.inl (List.mem_append_right _ (List.mem_singleton.mpr rfl)))

/-- The user of a claim. -/
def userOf (users : Users) : Option Claim → Option (Uuid × UserRow)
  | some (.uuid id) => (users.lookup id).map fun row => (id, row)
  | _ => none

/-- What a statement reads in a transaction that has written nothing. -/
def Reads (config : Config) (s : State) : (statement : Statement) → Result statement → Prop
  | .selectUserByEmail email, found => found = userByEmail s.db.rows email
  | .selectUser subject, found => found = userOf s.db.rows subject
  | .refreshUser id, found => found = s.db.rows.lookup id
  | .hash password, hashed => ∃ salt, hashed = config.pwdContext.hash salt password
  | _, _ => False

def Statement.reads : Statement → Bool
  | .insertUser _ => false
  | .commit => false
  | .now => false
  | .sign _ _ => false
  | _ => true

theorem view_of_idle (h : s.db.Idle i) : s.db.view i = s.db.rows := by
  rw [RowStore.view, h.pending, AList.empty_union]

/-- The subject of a token cannot be compared with a UUID. -/
def Incomparable (subject : Option Claim) : Prop :=
  ∃ claim, subject = some claim ∧ ∀ id, claim ≠ .uuid id

theorem reads_of_proceed {statement : Statement} (hreads : statement.reads = true)
    {generated : Uuid} {salt : String} {answer : Answer statement} (hidle : s.db.Idle i)
    (h : proceed config i generated salt s statement = some (answer, s')) :
    s' = s ∧ ((∃ value, answer = .ok value ∧ Reads config s statement value) ∨
      answer = .error .failure ∧ ∃ subject, statement = .selectUser subject ∧
        Incomparable subject) := by
  have hview := view_of_idle hidle
  cases statement with
  | selectUserByEmail email =>
      simp only [proceed, hview, Option.some.injEq, Prod.mk.injEq] at h
      obtain ⟨rfl, rfl⟩ := h
      exact ⟨rfl, Or.inl ⟨_, rfl, rfl⟩⟩
  | selectUser subject =>
      rcases subject with _ | claim
      · simp only [proceed, Option.some.injEq, Prod.mk.injEq] at h
        obtain ⟨rfl, rfl⟩ := h
        exact ⟨rfl, Or.inl ⟨_, rfl, rfl⟩⟩
      · cases claim with
        | uuid id =>
            simp only [proceed, RowStore.read, hview, Option.some.injEq, Prod.mk.injEq] at h
            obtain ⟨rfl, rfl⟩ := h
            exact ⟨rfl, Or.inl ⟨_, rfl, rfl⟩⟩
        | _ =>
            simp only [proceed, Option.some.injEq, Prod.mk.injEq] at h
            obtain ⟨rfl, rfl⟩ := h
            exact ⟨rfl, Or.inr ⟨rfl, _, rfl, _, rfl, fun id heq => by cases heq⟩⟩
  | refreshUser id =>
      simp only [proceed, RowStore.read, hview, Option.some.injEq, Prod.mk.injEq] at h
      obtain ⟨rfl, rfl⟩ := h
      exact ⟨rfl, Or.inl ⟨_, rfl, rfl⟩⟩
  | hash password =>
      simp only [proceed, Option.some.injEq, Prod.mk.injEq] at h
      obtain ⟨rfl, rfl⟩ := h
      exact ⟨rfl, Or.inl ⟨_, rfl, salt, rfl⟩⟩
  | _ => cases hreads

theorem does_read (hD : Over config D) {statement : Statement} (hreads : statement.reads = true)
    (hP : Stays P) (hfails : Breaks config i P R)
    (hincomparable : ∀ subject, statement = .selectUser subject → Incomparable subject →
      ∀ s, D.inv s → P s → R (.db .failure) s) {Q : Result statement → State → Prop}
    (hQ : ∀ s value, D.inv s → P s → Reads config s statement value → Q value s) :
    Does config D request i R (Quiet i P) (query statement) fun value => Quiet i (Q value) :=
  does_query hD (stable_quiet hD hP) (fun _ s _ hpre => breaks_query hP hfails s hpre)
    fun s generated salt answer s' hinv hpre h => by
      obtain ⟨rfl, hanswer⟩ := reads_of_proceed hreads hpre.1 h
      refine ⟨hD.stored s' hinv, guarantee_refl s', ?_⟩
      rcases hanswer with ⟨value, rfl, hvalue⟩ | ⟨rfl, subject, hsubject, hnot⟩
      · exact ⟨hpre.1, hQ s' value hinv hpre.2 hvalue⟩
      · exact hincomparable subject hsubject hnot s' hinv hpre.2

/-- What is known of the time that the clock shows. -/
theorem does_now (hD : Over config D) (hP : Stays P)
    {Q : Int → State → Prop} (hQ : ∀ t, Stays (Q t))
    (hnow : ∀ s, D.inv s → P s → Q s.clock s) :
    Does config D request i R (Quiet i P) (query .now) fun t =>
      Quiet i fun s => Q t s ∧ (i, t) ∈ s.readings ∧ t ≤ s.clock :=
  does_query hD (stable_quiet hD hP) (fun hsql => by cases hsql)
    fun s generated salt answer s' hinv hpre h => by
      obtain ⟨rfl, rfl⟩ := Prod.mk.inj (Option.some.inj h)
      obtain ⟨hstored, hguarantee⟩ := (hD.stored s hinv).read config request i
      exact ⟨hstored, hguarantee, hpre.1, hQ _ s _ hguarantee.grows (hnow s hinv hpre.2),
        List.mem_append_right _ (List.mem_singleton.mpr rfl), Int.le_refl _⟩

theorem does_sign (hD : Over config D) {payload : Payload} {key : String} (hP : Stays P)
    (hissued : ∀ s, D.inv s → P s → Issued config i s ⟨i, key, payload, s.clock⟩ request) :
    Does config D request i R (Quiet i P) (query (.sign payload key)) fun token =>
      Quiet i fun s => P s ∧ token = config.jwt.encode payload key :=
  does_query hD (stable_quiet hD hP) (fun hsql => by cases hsql)
    fun s generated salt answer s' hinv hpre h => by
      simp only [proceed, Option.some.injEq, Prod.mk.injEq] at h
      obtain ⟨rfl, rfl⟩ := h
      obtain ⟨hstored, hguarantee⟩ := (hD.stored s hinv).sign (hissued s hinv hpre.2) rfl
      exact ⟨hstored, hguarantee, hpre.1, hP s _ hguarantee.grows hpre.2, rfl⟩

/-- A token is signed with the claims of a stored user; `Q` is what is known of the time
    they are made. -/
theorem does_createToken (row : UserRow) (hD : Over config D) {u : Uuid} {tokenType : TokenType}
    {Q : Int → State → Prop} (hP : Stays P) (hQ : ∀ t, Stays (Q t))
    (hfails : ∀ t, Breaks config i (Q t) R) (hnow : ∀ s, P s → Q s.clock s)
    (hissued : ∀ s t time, Q t s → (i, t) ∈ s.readings → t ≤ time → Issued config i s
      ⟨i, config.secret tokenType, config.claimsOf u row tokenType t, time⟩ request) :
    Does config D request i R (Quiet i P) (createToken config u row.role tokenType)
      fun token => Quiet i fun s => ∃ t, (Q t s ∧ (i, t) ∈ s.readings) ∧
        token = config.jwt.encode (config.claimsOf u row tokenType t)
          (config.secret tokenType) := by
  refine does_bind _ (does_now hD hP hQ fun s _ h => hnow s h) fun t => ?_
  have hstays : Stays fun s => Q t s ∧ (i, t) ∈ s.readings ∧ t ≤ s.clock :=
    fun s s' hgrows h => ⟨hQ t s s' hgrows h.1, hgrows.readings _ h.2.1,
      Int.le_trans h.2.2 hgrows.clock⟩
  refine Discipline.Triple.raiseIf (fun hrange s _ h => ?_) fun _ => ?_
  · exact hfails t _ s h.2.1 (Or.inr ⟨tokenType, t, h.2.2.1, by simpa using hrange⟩)
  · exact does_mono (does_sign hD hstays fun s _ h => hissued s t s.clock h.1 h.2.1 h.2.2)
      fun token s _ h => ⟨h.1, t, ⟨h.2.1.1, h.2.1.2.1⟩, h.2.2⟩

/-- The outcome of a check. -/
def decided : Except ApiError α → Handler α
  | .ok value => .ret value
  | .error error => .fail (.api error)

theorem verifyToken_eq (token : String) (tokenType : TokenType) :
    verifyToken config token tokenType =
      query .now >>= fun now => decided (config.verdict token tokenType now) := by
  unfold verifyToken Config.verdict
  congr 1
  funext now
  cases config.jwt.decode token (config.secret tokenType) (seconds now) with
  | error error =>
      cases error with
      | expired => rfl
      | invalid => rfl
  | ok payload =>
      by_cases htype : payload.get? "type" = some (.text tokenType.value)
      · simp only [if_pos htype]
        rfl
      · simp only [if_neg htype]
        rfl

/-- The token has been verified when the clock showed `t`. -/
def Verified (config : Config) (i : Nat) (token : String) (tokenType : TokenType)
    (payload : Payload) (t : Int) (s : State) : Prop :=
  (i, t) ∈ s.readings ∧ t ≤ s.clock ∧ config.verdict token tokenType t = .ok payload

theorem stays_verified {token : String} {tokenType : TokenType} {payload : Payload} {t : Int} :
    Stays (Verified config i token tokenType payload t) :=
  fun _ _ hgrows h => ⟨hgrows.readings _ h.1, Int.le_trans h.2.1 hgrows.clock, h.2.2⟩

theorem does_verifyToken (hD : Over config D) {token : String} {tokenType : TokenType}
    (hrefused : ∀ s t error, D.inv s → (i, t) ∈ s.readings → t ≤ s.clock →
      config.verdict token tokenType t = .error error → R (.api error) s) :
    Does config D request i R (Quiet i fun _ => True) (verifyToken config token tokenType)
      fun payload => Quiet i fun s => ∃ t, Verified config i token tokenType payload t s := by
  rw [verifyToken_eq]
  refine does_bind _ (does_now (Q := fun _ _ => True) hD stays_true (fun _ => stays_true)
    fun _ _ _ => trivial) fun t => ?_
  cases hverdict : config.verdict token tokenType t with
  | ok payload => exact does_ret fun s _ h => ⟨h.1, t, h.2.2.1, h.2.2.2, hverdict⟩
  | error error =>
      exact does_refuse fun s hinv h => hrefused s t error hinv h.2.2.1 h.2.2.2 hverdict

def missingToken : ApiError := ⟨"TOKEN_INVALID", 401, "Missing access token", .none⟩

def unknownUser (tokenType : TokenType) : ApiError :=
  ⟨tokenType.invalidCode, 401, "User not found", .none⟩

def wrongCredentials : ApiError := ⟨"TOKEN_INVALID", 401, "Invalid credentials", .none⟩

theorem userOf_eq_some {users : Users} {subject : Option Claim} {u : Uuid} {row : UserRow}
    (h : userOf users subject = some (u, row)) :
    subject = some (.uuid u) ∧ users.lookup u = some row := by
  rcases subject with _ | claim
  · cases h
  · cases claim with
    | uuid id =>
        simp only [userOf, Option.map_eq_some_iff, Prod.mk.injEq] at h
        obtain ⟨row', hrow, rfl, rfl⟩ := h
        exact ⟨rfl, hrow⟩
    | _ => cases h

/-- The token of `u` has been verified, and `u` is stored. -/
def Vouched (config : Config) (i : Nat) (token : String) (tokenType : TokenType) (u : Uuid)
    (row : UserRow) (s : State) : Prop :=
  s.db.rows.lookup u = some row ∧ ∃ payload t, Verified config i token tokenType payload t s ∧
    payload.get? "sub" = some (.uuid u)

theorem stays_vouched (config : Config) (i : Nat) (token : String) (tokenType : TokenType)
    (u : Uuid) (row : UserRow) : Stays (Vouched config i token tokenType u row) := by
  rintro s s' hgrows ⟨hrow, payload, t, hverified, hsubject⟩
  exact ⟨hgrows.users u row hrow, payload, t, stays_verified s s' hgrows hverified, hsubject⟩

/-- `R` tells of every error of a request that loads the user of a token. -/
structure Loads (config : Config)
    (D : Discipline Statement HandlerError Response Request State) (i : Nat)
    (R : HandlerError → State → Prop) (token : String) (tokenType : TokenType) : Prop where
  refused : ∀ s t error, D.inv s → (i, t) ∈ s.readings → t ≤ s.clock →
    config.verdict token tokenType t = .error error → R (.api error) s
  unknown : ∀ s payload t, D.inv s → Verified config i token tokenType payload t s →
    userOf s.db.rows (payload.get? "sub") = none → R (.api (unknownUser tokenType)) s
  incomparable : ∀ s payload t, D.inv s → Verified config i token tokenType payload t s →
    Incomparable (payload.get? "sub") → R (.db .failure) s
  breaks : ∀ payload t, Breaks config i (Verified config i token tokenType payload t) R

/-- Verifying a token and loading its user. -/
theorem does_loadUser (hD : Over config D) {token : String} {tokenType : TokenType}
    (h : Loads config D i R token tokenType) :
    Does config D request i R (Quiet i fun _ => True)
      (verifyToken config token tokenType >>= fun payload =>
        query (.selectUser (payload.get? "sub")) >>= requireUser tokenType)
      fun user => Quiet i (Vouched config i token tokenType user.1 user.2) := by
  refine does_bind _ (does_verifyToken hD h.refused) fun payload => ?_
  have hP : Stays fun s => ∃ t, Verified config i token tokenType payload t s := by
    rintro s s' hgrows ⟨t, hverified⟩
    exact ⟨t, stays_verified s s' hgrows hverified⟩
  refine does_bind (fun found => Quiet i fun s =>
      (found = none → R (.api (unknownUser tokenType)) s) ∧
        ∀ u row, found = some (u, row) → Vouched config i token tokenType u row s)
    (does_read hD rfl hP ?_ ?_ fun s found hinv hverified hread => ?_) fun found => ?_
  · rintro error s ⟨t, hverified⟩ hbroken
    exact h.breaks payload t error s hverified hbroken
  · rintro subject heq hnot s hinv ⟨t, hverified⟩
    cases heq
    exact h.incomparable s payload t hinv hverified hnot
  · obtain ⟨t, hverified⟩ := hverified
    refine ⟨fun hnone => h.unknown s payload t hinv hverified (hread ▸ hnone),
      fun u row heq => ?_⟩
    obtain ⟨hsubject, hrow⟩ := userOf_eq_some (hread ▸ heq)
    exact ⟨hrow, payload, t, hverified, hsubject⟩
  · rcases found with _ | ⟨u, row⟩
    · exact does_refuse fun s _ h => h.2.1 rfl
    · exact does_ret fun s _ h => ⟨h.1, h.2.2 u row rfl⟩

/-! ## The handlers -/

theorem does_getCurrentUser (hD : Over config D) {credentials : Option String}
    (hmissing : (credentials.filter fun value => value ≠ "") = none →
      ∀ s, R (.api missingToken) s)
    (hloads : ∀ value, credentials = some value → Loads config D i R (strip value) .access) :
    Does config D request i R (Quiet i fun _ => True) (getCurrentUser config credentials)
      fun user => Quiet i fun s => ∃ value, credentials = some value ∧
        Vouched config i (strip value) .access user.1 user.2 s := by
  unfold getCurrentUser
  cases hvalue : credentials.filter fun value => value ≠ "" with
  | none => exact does_refuse fun s _ _ => hmissing hvalue s
  | some value =>
      have hcredentials : credentials = some value := (Option.filter_eq_some_iff.mp hvalue).1
      exact does_mono (does_loadUser hD (hloads value hcredentials))
        fun user s _ h => ⟨h.1, value, hcredentials, h.2⟩

theorem does_bearer (hD : Over config D) {credentials : Option String}
    (hmissing : (credentials.filter fun value => value ≠ "") = none →
      ∀ s, R (.api missingToken) s)
    (hloads : ∀ value, credentials = some value → Loads config D i R (strip value) .access) :
    Does config D request i R (Quiet i fun _ => True) (handle config (.bearer credentials))
      fun response s => ∃ u row value, response = .current u row.role ∧
        credentials = some value ∧ Vouched config i (strip value) .access u row s := by
  refine does_bind _ (does_getCurrentUser hD hmissing hloads) fun user => ?_
  obtain ⟨u, row⟩ := user
  refine does_ret fun s _ h => ?_
  obtain ⟨_, value, hvalue, hvouched⟩ := h
  exact ⟨u, row, value, rfl, hvalue, hvouched⟩

/-- Verified not after `t`. -/
def VouchedBy (config : Config) (i : Nat) (token : String) (u : Uuid) (t : Int)
    (s : State) : Prop :=
  ∃ payload t₁, Verified config i token .refresh payload t₁ s ∧ t₁ ≤ t ∧
    payload.get? "sub" = some (.uuid u)

theorem does_refreshToken (hD : Over config D) {token : String}
    (hloads : Loads config D i R token .refresh) :
    Does config D (.refresh token) i R (Quiet i fun _ => True) (refreshToken config token)
      fun response s => ∃ u row t, (i, t) ∈ s.readings ∧
        Vouched config i token .refresh u row s ∧ VouchedBy config i token u t s ∧
        response = .tokens (config.jwt.encode (config.claimsOf u row .access t)
          (config.secret .access)) token := by
  have hload : Does config D (.refresh token) i R (Quiet i fun _ => True) _ _ :=
    does_loadUser hD hloads
  have hprogram : refreshToken config token =
      (verifyToken config token .refresh >>= fun payload =>
        query (.selectUser (payload.get? "sub")) >>= requireUser .refresh) >>= fun user =>
          createToken config user.1 user.2.role .access >>= fun accessToken =>
            .ret (.tokens accessToken token) := by
    simp only [Program.bind_assoc]
    rfl
  rw [hprogram]
  refine does_bind _ hload fun user => ?_
  obtain ⟨u, row⟩ := user
  refine does_bind _ (does_createToken row
    (Q := fun t s => Vouched config i token .refresh u row s ∧ VouchedBy config i token u t s) hD
    (stays_vouched config i token .refresh u row) (fun t s s' hgrows h => ?_)
    (fun t error s h hbroken => ?_) (fun s h => ?_) fun s t time h ht hle => ?_)
    fun accessToken => does_ret fun s _ h => ?_
  · obtain ⟨hvouched, payload, t₁, hverified, hrest⟩ := h
    exact ⟨stays_vouched config i token .refresh u row s s' hgrows hvouched, payload, t₁,
      stays_verified s s' hgrows hverified, hrest⟩
  · obtain ⟨_, payload, t₁, hverified, _⟩ := h
    exact hloads.breaks payload t₁ error s hverified hbroken
  · obtain ⟨hrow, payload, t₁, hverified, hsubject⟩ := id h
    exact ⟨h, payload, t₁, hverified, hverified.2.1, hsubject⟩
  · obtain ⟨hvouched, payload, t₁, hverified, hbefore, hsubject⟩ := h
    exact .refresh u row payload t₁ t hvouched.1 hverified.2.2 hsubject hverified.1 ht hbefore hle
      rfl
  · obtain ⟨_, t, ⟨⟨hvouched, hby⟩, ht⟩, htoken⟩ := h
    exact ⟨u, row, t, ht, hvouched, hby, by rw [htoken]⟩

theorem stays_authentic (config : Config) (payload : AuthLoginRequest) (u : Uuid)
    (row : UserRow) : Stays (Authentic config payload u row) :=
  fun _ _ hgrows h => ⟨hgrows.users u row h.stored, h.email, h.password⟩

theorem userByEmail_eq_some {users : Users} {email : String} {u : Uuid} {row : UserRow}
    (h : userByEmail users email = some (u, row)) :
    users.lookup u = some row ∧ row.email = email := by
  obtain ⟨entry, hentry, hfound⟩ := List.exists_of_findSome?_eq_some h
  rw [Option.ite_none_right_eq_some, Option.some.injEq, Prod.mk.injEq] at hfound
  obtain ⟨hemail, rfl, rfl⟩ := hfound
  exact ⟨AList.mem_lookup_iff.mpr hentry, hemail⟩

theorem does_loginUser (hD : Over config D) {payload : AuthLoginRequest}
    (hrefused : ∀ s, D.inv s → (∀ u row, userByEmail s.db.rows payload.email = some (u, row) →
      config.pwdContext.verify payload.password row.hashedPassword = false) →
        R (.api wrongCredentials) s)
    (hfails : Breaks config i (fun _ => True) R) :
    Does config D (.login payload) i R (Quiet i fun _ => True) (loginUser config payload)
      fun response s => ∃ u row t₁ t₂, Authentic config payload u row s ∧
        (i, t₁) ∈ s.readings ∧ (i, t₂) ∈ s.readings ∧ response = .tokens
          (config.jwt.encode (config.claimsOf u row .access t₁) (config.secret .access))
          (config.jwt.encode (config.claimsOf u row .refresh t₂) (config.secret .refresh)) := by
  refine does_bind (fun found => Quiet i fun s =>
      ((∀ u row, found = some (u, row) →
        config.pwdContext.verify payload.password row.hashedPassword = false) →
          R (.api wrongCredentials) s) ∧
        ∀ u row, found = some (u, row) → s.db.rows.lookup u = some row ∧ row.email = payload.email)
    (does_read hD rfl stays_true hfails (fun _ heq => by cases heq)
      fun s found hinv _ hread => ?_) fun found => ?_
  · obtain rfl := hread
    exact ⟨hrefused s hinv, fun u row hfound => userByEmail_eq_some hfound⟩
  · rcases found with _ | ⟨u, row⟩
    · exact does_refuse fun s _ h => h.2.1 fun u row heq => by cases heq
    · simp only
      split
      · rename_i hpassword
        have hissued : ∀ tokenType s t time, Authentic config payload u row s →
            (i, t) ∈ s.readings → t ≤ time → Issued config i s
              ⟨i, config.secret tokenType, config.claimsOf u row tokenType t, time⟩
              (.login payload) :=
          fun tokenType s t time h ht hle => .login u row tokenType t h ht hle rfl
        refine Discipline.Triple.weaken (Quiet i (Authentic config payload u row)) ?_ fun s _ h =>
          ⟨h.1, (h.2.2 u row rfl).1, (h.2.2 u row rfl).2, hpassword⟩
        refine does_bind _ (does_createToken row
          (Q := fun _ => Authentic config payload u row) hD
          (stays_authentic config payload u row) (fun _ => stays_authentic config payload u row)
          (fun _ error s _ => hfails error s trivial) (fun _ h => h) (hissued .access))
          fun accessToken => ?_
        have hP : Stays fun s => ∃ t, (Authentic config payload u row s ∧ (i, t) ∈ s.readings) ∧
            accessToken =
              config.jwt.encode (config.claimsOf u row .access t) (config.secret .access) := by
          rintro s s' hgrows ⟨t, ⟨hauthentic, ht⟩, htoken⟩
          exact ⟨t, ⟨stays_authentic config payload u row s s' hgrows hauthentic,
            hgrows.readings _ ht⟩, htoken⟩
        refine does_bind _ (does_createToken row (Q := fun _ s =>
          ∃ t, (Authentic config payload u row s ∧ (i, t) ∈ s.readings) ∧ accessToken =
            config.jwt.encode (config.claimsOf u row .access t) (config.secret .access)) hD hP
          (fun _ => hP) (fun _ error s _ => hfails error s trivial) (fun _ h => h)
          fun s t time h ht hle => ?_) fun refreshToken => does_ret fun s _ h => ?_
        · obtain ⟨_, ⟨hauthentic, _⟩, _⟩ := h
          exact hissued .refresh s t time hauthentic ht hle
        · obtain ⟨_, t₂, ⟨⟨t₁, ⟨hauthentic, ht₁⟩, rfl⟩, ht₂⟩, rfl⟩ := h
          exact ⟨u, row, t₁, t₂, hauthentic, ht₁, ht₂, rfl⟩
      · rename_i hpassword
        refine does_refuse fun s _ h => h.2.1 fun u' row' heq => ?_
        obtain ⟨rfl, rfl⟩ := Prod.mk.inj (Option.some.inj heq)
        exact Bool.eq_false_iff.mpr hpassword

/-- The transaction has written the row of a new user, and nothing else. -/
def Inserted (i : Nat) (id : Uuid) (row : UserRow) (s : State) : Prop :=
  s.db.pending i = (∅ : Users).insert id row

theorem stable_inserted (hD : Over config D) (id : Uuid) (row : UserRow) :
    D.Stable request i (Inserted i id row) := by
  intro s s' _ hrely h
  obtain ⟨_, hkeeps⟩ := hD.rely request i s s' hrely
  exact hkeeps.pending.trans h

theorem does_insertUser (hD : Over config D) (row : UserRow) (hrefused : ∀ error s, R error s) :
    Does config D request i R (Quiet i fun _ => True) (query (.insertUser row))
      fun id => Inserted i id row :=
  does_query hD (stable_quiet hD stays_true) (fun _ _ _ _ => hrefused _ _)
    fun s generated salt answer s' hinv hpre h => by
      obtain ⟨⟨written, db⟩, hinsert, heq⟩ := Option.map_eq_some_iff.mp h
      obtain ⟨hstored, hguarantee⟩ := (hD.stored s hinv).insert config request hinsert
      rcases RowStore.insert_cases hinsert with
        ⟨rfl, rfl, _⟩ | ⟨s₁, s₂, _, _, _, hemail, hid, rfl, rfl⟩
      · obtain ⟨rfl, rfl⟩ := Prod.mk.inj heq
        exact ⟨hstored, hguarantee, hrefused _ _⟩
      · obtain ⟨rfl, rfl⟩ := Prod.mk.inj heq
        refine ⟨hstored, hguarantee, ?_⟩
        change Inserted i generated row _
        rw [Inserted, RowStore.put_pending, (RowStore.acquire_spec hid).2.1,
          (RowStore.acquire_spec hemail).2.1, hpre.1.pending]

theorem does_commitUser (hD : Over config D) (id : Uuid) (row : UserRow)
    (hrefused : ∀ error s, R error s) :
    Does config D request i R (Inserted i id row) (query .commit)
      fun _ => Quiet i fun s => s.db.rows.lookup id = some row :=
  does_query hD (stable_inserted hD id row) (fun _ _ _ _ => hrefused _ _)
    fun s generated salt answer s' hinv hpre h => by
      obtain ⟨rfl, rfl⟩ := Prod.mk.inj (Option.some.inj h)
      obtain ⟨hstored, hguarantee⟩ := (hD.stored s hinv).commit config request i
      refine ⟨hstored, hguarantee, RowStore.finish_idle _ _ _, ?_⟩
      change (s.db.commit i).rows.lookup id = some row
      rw [RowStore.commit_rows, hpre,
        AList.lookup_union_left ((AList.mem_insert _).mpr (Or.inl rfl)), AList.lookup_insert]

theorem does_registerUser (hD : Over config D) {payload : AuthRegisterRequest}
    (hrefused : ∀ error s, R error s) :
    Does config D request i R (Quiet i fun _ => True) (registerUser payload)
      fun response s => ∃ id row salt, response = .registered id row.email row.role ∧
        s.db.rows.lookup id = some row ∧ row.email = payload.email ∧
        row.role = payload.role.getD .user ∧
        config.pwdContext.hash salt payload.password = some row.hashedPassword := by
  have hfails : ∀ {P : State → Prop}, Breaks config i P R := fun error s _ _ => hrefused _ s
  refine does_bind (fun _ => Quiet i fun _ => True)
    (does_read hD rfl stays_true hfails (fun _ heq => by cases heq) fun _ _ _ _ _ => trivial)
    fun existing => ?_
  refine Discipline.Triple.raiseIf (fun _ s _ _ => hrefused _ s) fun _ => ?_
  refine does_bind (fun hashedPassword => Quiet i fun _ => ∃ salt,
      config.pwdContext.hash salt payload.password = some hashedPassword)
    (does_bind (fun hashed => Quiet i fun _ => ∃ salt,
        hashed = config.pwdContext.hash salt payload.password)
      (does_read hD rfl stays_true hfails (fun _ heq => by cases heq) fun _ _ _ _ hread => hread)
      fun hashed => ?_)
    fun hashedPassword => ?_
  · cases hashed with
    | none => exact does_refuse fun s _ _ => hrefused _ s
    | some hashedPassword =>
        refine does_ret fun s _ h => ⟨h.1, ?_⟩
        obtain ⟨_, salt, hhash⟩ := h
        exact ⟨salt, hhash.symm⟩
  · refine Discipline.Triple.weaken (fun s => (∃ salt, config.pwdContext.hash salt
        payload.password = some hashedPassword) ∧ Quiet i (fun _ => True) s)
      (Discipline.Triple.pure fun hhash => ?_) fun s _ h => ⟨h.2, h.1, trivial⟩
    obtain ⟨salt, hhash⟩ := hhash
    refine does_bind _ (does_insertUser hD _ hrefused) fun id => ?_
    refine does_bind _ (does_commitUser hD id _ hrefused) fun _ => ?_
    refine does_bind (fun found s => ∀ user, found = some user →
        user = ⟨payload.email, hashedPassword, payload.role.getD .user⟩ ∧
          s.db.rows.lookup id = some user)
      (does_mono (does_read hD rfl (fun s s' hgrows h => hgrows.users id _ h) hfails
        (fun _ heq => by cases heq)
        fun s found _ h hread => (⟨hread, h⟩ : found = s.db.rows.lookup id ∧ _ = some _))
        fun found s _ h user heq => ?_) fun found => ?_
    · obtain ⟨_, hread, hrow⟩ := h
      rw [heq, hrow] at hread
      obtain rfl := Option.some.inj hread
      exact ⟨rfl, hrow⟩
    · cases found with
      | none => exact Discipline.Triple.fail fun s _ _ => hrefused _ s
      | some user =>
          refine does_ret fun s _ h => ?_
          obtain ⟨rfl, hrow⟩ := h user rfl
          exact ⟨id, _, salt, rfl, hrow, rfl, rfl, hhash⟩

end Rules

/-! ## Soundness -/

theorem over_discipline (config : Config) : Over config (discipline config) where
  rely _ _ _ _ h := h
  stored _ h := h
  step _ _ _ _ _ hstored hguarantee := ⟨hstored, hguarantee⟩
  known _ _ _ _ := trivial

theorem loads_any {D : Discipline Statement HandlerError Response Request State} {token : String}
    {tokenType : TokenType} : Loads config D i (fun _ _ => True) token tokenType :=
  ⟨fun _ _ _ _ _ _ _ => trivial, fun _ _ _ _ _ _ => trivial, fun _ _ _ _ _ _ => trivial,
    fun _ _ _ _ _ _ => trivial⟩

theorem does_handle (request : Request) :
    (discipline config).Triple (service config) request i (fun s => s.db.Idle i)
      (handle config request) fun result s => told config request i result s := by
  have hD := over_discipline config
  cases request with
  | register payload =>
      refine Discipline.Triple.mono (does_registerUser (R := fun _ _ => True) hD fun _ _ =>
        trivial) (fun s _ h => ⟨h, trivial⟩) fun result s _ h response heq => ?_
      subst heq
      exact h
  | login payload =>
      exact Discipline.Triple.mono (does_loginUser (R := fun _ _ => True) hD (fun _ _ _ =>
        trivial) fun _ _ _ _ => trivial) (fun s _ h => ⟨h, trivial⟩) fun _ _ _ _ => trivial
  | refresh token =>
      exact Discipline.Triple.mono (does_refreshToken (R := fun _ _ => True) hD loads_any)
        (fun s _ h => ⟨h, trivial⟩) fun _ _ _ _ => trivial
  | bearer credentials =>
      refine Discipline.Triple.mono (does_bearer (R := fun _ _ => True) hD
        (fun _ _ => trivial) fun _ _ => loads_any)
        (fun s _ h => ⟨h, trivial⟩) fun result s _ h response heq => ?_
      subst heq
      obtain ⟨u, row, value, hresponse, hvalue, hrow, payload, t, hverified, hsubject⟩ := h
      exact ⟨u, row, value, payload, t, hresponse, hrow, hvalue, hverified.1, hverified.2.2,
        hsubject⟩

theorem sound (config : Config) : (discipline config).Sound (service config) where
  rely_refl _ i s := ⟨.refl s, RowStore.Keeps.refl i s.db⟩
  rely_trans _ _ _ _ _ h h' := ⟨h.1.trans h'.1, h.2.trans h'.2⟩
  guarantee_rely _ _ _ j _ _ hij _ _ h := ⟨h.grows, h.others j hij⟩
  guarantee_unused _ _ j _ _ hij h hunused := (h.others j hij).idle hunused
  guarantee_answer _ _ _ _ _ _ _ _ _ h hanswer := told_grows hanswer h.grows
  close_inv i _ h := (h.rollback config (.bearer none) i).1
  close_guarantee request i _ h := (h.rollback config request i).2
  close_answer request i _ s h hanswer :=
    told_grows hanswer (h.rollback config request i).2.grows
  answer_stable _ _ _ _ _ _ hrely hanswer := told_grows hanswer hrely.1
  outside_inv elapsed s s' h hinv := by
    simp only [service, Option.some.injEq] at h
    subst h
    exact ⟨hinv.consistent, hinv.fresh⟩
  outside_rely elapsed s s' h _ _ i := by
    simp only [service, Option.some.injEq] at h
    subst h
    exact ⟨⟨fun _ _ h => h, by simp, fun _ h => h, fun _ h => h, fun _ h => h⟩,
      RowStore.Keeps.refl i s.db⟩
  outside_unused elapsed s s' h i hunused := by
    simp only [service, Option.some.injEq] at h
    subst h
    exact hunused
  handler_safe request i := does_handle request

end SoaHomework.Marketplace.Auth
