import TokenEra.Lib.Run
import TokenEra.Token.Model

/-!
# The token cache

The hash of one token in Redis, and the fence that a mutation raises before it drops the hash and
writes the database. Readers publish the row that they have read from the database unless the fence
is up or there is a hash already; the quota scripts change a hash in place. The fence is not lowered
but expires.

The interleaving is at the commands: a mutation raises the fence, deletes the hash, commits; a
reader reads the cache, reads the database, publishes. `Timely window gap` bounds the time from a
fence to its commit and the time from a database read to its publication. When the two together are
below the time that the fence is up, a snapshot that a mutation has made old finds the fence up when
it is published. So the hash always has the metadata of the database (`Inv.coherent`), and no call
returns metadata that was old when it started (`cache_never_stale`).
-/

namespace TokenEra.Tokens.Cache

open Lib

def tokenCacheFenceSeconds : Int := 10

/-! ### The hash -/

structure Hash where
  id : Option Int
  userId : Option Int
  status : Option TokenStatus
  name : Option String
  createdTime : Option Int
  accessedTime : Option Int
  expiredTime : Option Int
  unlimitedQuota : Option Bool
  modelLimitsEnabled : Option Bool
  modelLimits : Option String
  allowIps : Option String
  remainQuota : Option Int
  usedQuota : Option Int
deriving DecidableEq, Repr

def Hash.ofToken (t : Token) : Hash where
  id := some t.id
  userId := some t.userId
  status := some t.status
  name := some t.name
  createdTime := some t.createdTime
  accessedTime := some t.accessedTime
  expiredTime := some t.expiredTime
  unlimitedQuota := some t.unlimitedQuota
  modelLimitsEnabled := some t.modelLimitsEnabled
  modelLimits := some t.modelLimits
  allowIps := some (t.allowIps.getD "")
  remainQuota := some t.remainQuota
  usedQuota := some t.usedQuota

/-- `RedisHGetObj`: a field that is missing stays zero, and an empty pointer field stays nil. -/
def Hash.toToken (h : Hash) (key : String) : Token where
  id := h.id.getD 0
  userId := h.userId.getD 0
  key := key
  status := h.status.getD (.other 0)
  name := h.name.getD ""
  createdTime := h.createdTime.getD 0
  accessedTime := h.accessedTime.getD 0
  expiredTime := h.expiredTime.getD 0
  remainQuota := h.remainQuota.getD 0
  unlimitedQuota := h.unlimitedQuota.getD false
  modelLimitsEnabled := h.modelLimitsEnabled.getD false
  modelLimits := h.modelLimits.getD ""
  allowIps := if h.allowIps.getD "" = "" then none else h.allowIps
  usedQuota := h.usedQuota.getD 0

def cacheGetTokenByKey (key : String) (hash : Option Hash) : Option Token :=
  match hash with
  | none => none
  | some h => if (h.toToken key).id ≤ 0 then none else some (h.toToken key)

/-- The check with which both quota scripts begin: the two balances, if the hash is that of the
token. -/
def quotaFields (id : Int) (hash : Option Hash) : Option (Hash × Int × Int) :=
  match hash with
  | none => none
  | some h =>
    if h.id.getD 0 ≠ id then none
    else
      match h.remainQuota, h.usedQuota with
      | some remain, some used => some (h, remain, used)
      | _, _ => none

/-- `tokenQuotaReserveScript`. -/
def cacheTryReserveTokenQuota (id amount now : Int) (hash : Option Hash) : Option Hash × Int :=
  match quotaFields id hash with
  | none => (hash, -1)
  | some (h, remain, used) =>
    if remain < amount then (hash, 0)
    else
      (some { h with
        remainQuota := some (remain - amount)
        usedQuota := some (used + amount)
        accessedTime := some now }, 1)

/-- `tokenQuotaDeltaScript`. -/
def cacheApplyTokenQuotaDelta (id delta now : Int) (hash : Option Hash) : Option Hash × Int :=
  match quotaFields id hash with
  | none => (hash, -1)
  | some (h, remain, used) =>
    (some { h with
      remainQuota := some (remain + delta)
      usedQuota := some (used - delta)
      accessedTime := some now }, 1)

/-! ### Metadata -/

structure Metadata where
  status : TokenStatus
  expiredTime : Int
  modelLimitsEnabled : Bool
  modelLimits : String
  allowIps : String
deriving DecidableEq, Repr

def metadata (t : Token) : Metadata :=
  ⟨t.status, t.expiredTime, t.modelLimitsEnabled, t.modelLimits, t.allowIps.getD ""⟩

theorem metadata_toToken_ofToken (t : Token) (key : String) : metadata ((Hash.ofToken t).toToken key) = metadata t := by
  by_cases hips : t.allowIps.getD "" = ""
  · simp [metadata, Hash.toToken, Hash.ofToken, hips]
  · simp [metadata, Hash.toToken, Hash.ofToken, hips]

/-- A hash of the row: it differs from what `cacheInitToken` writes only in the fields that the
scripts change. -/
def Hash.IsOf (h : Hash) (t : Token) : Prop :=
  ∃ remain used accessed : Int,
    h = { Hash.ofToken t with remainQuota := some remain, usedQuota := some used, accessedTime := some accessed }

theorem isOf_ofToken (t : Token) : (Hash.ofToken t).IsOf t := ⟨t.remainQuota, t.usedQuota, t.accessedTime, rfl⟩

theorem Hash.IsOf.metadata_eq {h : Hash} {t : Token} (hof : h.IsOf t) (key : String) :
    metadata (h.toToken key) = metadata t := by
  obtain ⟨remain, used, accessed, rfl⟩ := hof
  exact metadata_toToken_ofToken t key

/-- The scripts leave a hash of the row a hash of the row. -/
theorem isOf_quotaFields {id : Int} {h : Hash} {t : Token} (hof : h.IsOf t) {fields : Hash × Int × Int}
    (hfields : quotaFields id (some h) = some fields) (remain used accessed : Int) :
    { fields.1 with remainQuota := some remain, usedQuota := some used, accessedTime := some accessed }.IsOf t := by
  have hsame : fields.1 = h := by
    simp only [quotaFields] at hfields
    split_ifs at hfields
    split at hfields <;> cases hfields
    · rfl
  obtain ⟨r, u, a, rfl⟩ := hof
  rw [hsame]
  exact ⟨remain, used, accessed, rfl⟩

/-! ### Mutations and readers -/

inductive Mutation
  | update (edited : Token)
  | selectUpdate (accessedTime : Int) (status : TokenStatus)
  | delete
  | batchDelete
deriving DecidableEq, Repr

/-- The row after the write; a row that is deleted is not updated. -/
def Mutation.write (row : Option Token) : Mutation → Option Token
  | .update edited => row.map (·.update edited)
  | .selectUpdate accessedTime status => row.map fun t => { t with accessedTime := accessedTime, status := status }
  | .delete | .batchDelete => none

inductive Writer
  | start
  | raised (time : Int)
  | cleared (time : Int)
  /-- It has committed and returned; its commit made this version. -/
  | done (version : Nat)
deriving DecidableEq

/-- A call of `GetTokenByKey`; `since` is the version at its start. -/
inductive Reader
  | start
  | missed (since : Nat)
  /-- The row read from the database, with its version and the time of the read. -/
  | snapshot (since : Nat) (token : Token) (version : Nat) (time : Int)
  | returned (since : Nat) (token : Token)
  | notFound
deriving DecidableEq

structure State (m n : Nat) where
  now : Int
  row : Option Token
  version : Nat
  /-- The metadata of each version; `none` for one in which the token is deleted. -/
  history : Nat → Option Metadata
  hash : Option Hash
  fence : Option Int
  writer : Fin m → Writer
  reader : Fin n → Reader

inductive Action (m n : Nat)
  | raiseFence (k : Fin m) (now : Int)
  | deleteHash (k : Fin m) (now : Int)
  | commit (k : Fin m) (now : Int)
  | readCache (i : Fin n) (now : Int)
  /-- `GetTokenByKey(key, true)` does not look into the cache. -/
  | skipCache (i : Fin n) (now : Int)
  | readRow (i : Fin n) (now : Int)
  | cacheInitToken (i : Fin n) (now : Int)
  | cacheTryReserveTokenQuota (id amount now : Int)
  | cacheApplyTokenQuotaDelta (id delta now : Int)
  | expireHash (now : Int)
deriving DecidableEq

def Action.now {m n : Nat} : Action m n → Int
  | .raiseFence _ now | .deleteHash _ now | .commit _ now | .readCache _ now | .skipCache _ now | .readRow _ now
  | .cacheInitToken _ now | .cacheTryReserveTokenQuota _ _ now | .cacheApplyTokenQuotaDelta _ _ now
  | .expireHash now => now

structure Calls (m : Nat) where
  key : String
  mutation : Fin m → Mutation

variable {m n : Nat} (c : Calls m)

def init (now : Int) (row : Option Token) (hash : Option Hash) : State m n where
  now := now
  row := row
  version := 0
  history _ := row.map metadata
  hash := hash
  fence := none
  writer _ := .start
  reader _ := .start

def State.setWriter (s : State m n) (k : Fin m) (w : Writer) : State m n :=
  { s with writer := Function.update s.writer k w }

def State.setReader (s : State m n) (i : Fin n) (r : Reader) : State m n :=
  { s with reader := Function.update s.reader i r }

def State.fenceUp (s : State m n) : Prop := ∃ u ∈ s.fence, s.now < u

instance (s : State m n) : Decidable s.fenceUp := inferInstanceAs (Decidable (∃ u ∈ s.fence, s.now < u))

def State.commit (s : State m n) (mutation : Mutation) : State m n :=
  { s with
    row := mutation.write s.row
    version := s.version + 1
    history := Function.update s.history (s.version + 1) ((mutation.write s.row).map metadata) }

def writerStep (s : State m n) (k : Fin m) : Writer → Option (State m n)
  | .start => some ({ s with fence := some (s.now + tokenCacheFenceSeconds) }.setWriter k (.raised s.now))
  | .raised t => some ({ s with hash := none }.setWriter k (.cleared t))
  | .cleared _ => some ((s.commit (c.mutation k)).setWriter k (.done (s.version + 1)))
  | .done _ => none

def readCache (s : State m n) : Reader :=
  match cacheGetTokenByKey c.key s.hash with
  | some token => .returned s.version token
  | none => .missed s.version

def readRow (s : State m n) (since : Nat) : Reader :=
  match s.row with
  | some token => .snapshot since token s.version s.now
  | none => .notFound

/-- The script of `cacheInitToken`. With a hash it only refreshes its expiry. -/
def initHash (s : State m n) (token : Token) : Option Hash :=
  if s.fenceUp then s.hash
  else
    match s.hash with
    | some h => some h
    | none => some (Hash.ofToken token)

def stepNow (s : State m n) : Action m n → Option (State m n)
  | .raiseFence k _ => if s.writer k = .start then writerStep c s k .start else none
  | .deleteHash k _ =>
    match s.writer k with
    | .raised t => writerStep c s k (.raised t)
    | _ => none
  | .commit k _ =>
    match s.writer k with
    | .cleared t => writerStep c s k (.cleared t)
    | _ => none
  | .readCache i _ => if s.reader i = .start then some (s.setReader i (readCache c s)) else none
  | .skipCache i _ => if s.reader i = .start then some (s.setReader i (.missed s.version)) else none
  | .readRow i _ =>
    match s.reader i with
    | .missed since => some (s.setReader i (readRow s since))
    | _ => none
  | .cacheInitToken i _ =>
    match s.reader i with
    | .snapshot since token _ _ => some ({ s with hash := initHash s token }.setReader i (.returned since token))
    | _ => none
  | .cacheTryReserveTokenQuota id amount now =>
    some { s with hash := (Cache.cacheTryReserveTokenQuota id amount now s.hash).1 }
  | .cacheApplyTokenQuotaDelta id delta now =>
    some { s with hash := (Cache.cacheApplyTokenQuotaDelta id delta now s.hash).1 }
  | .expireHash _ => some { s with hash := none }

/-- The clock does not go back. -/
def step (s : State m n) (a : Action m n) : Option (State m n) :=
  if s.now ≤ a.now then stepNow c { s with now := a.now } a else none

/-! ### No call returns old metadata -/

/-- A call returns metadata that the database has had at its start or after, and quota fields come
with an id. -/
structure NeverStale (s : State m n) : Prop where
  fresh : ∀ i since token, s.reader i = .returned since token →
    ∃ v, since ≤ v ∧ v ≤ s.version ∧ s.history v = some (metadata token)
  whole : ∀ h, s.hash = some h → h.remainQuota.isSome ∨ h.usedQuota.isSome → h.id.isSome

def Writer.raisedAt : Writer → Option Int
  | .cleared t => some t
  | _ => none

def Reader.readAt : Reader → Option Int
  | .snapshot _ _ _ t => some t
  | _ => none

/-- The time from a fence to its commit and the time from a database read to its publication. -/
def Timely (window gap : Int) (s : State m n) : Action m n → Prop
  | .commit k now => ∀ t ∈ (s.writer k).raisedAt, now - t ≤ window
  | .cacheInitToken i now => ∀ t ∈ (s.reader i).readAt, now - t ≤ gap
  | _ => True

instance (window gap : Int) (s : State m n) (a : Action m n) : Decidable (Timely window gap s a) :=
  match a with
  | .commit k now => inferInstanceAs (Decidable (∀ t ∈ (s.writer k).raisedAt, now - t ≤ window))
  | .cacheInitToken i now => inferInstanceAs (Decidable (∀ t ∈ (s.reader i).readAt, now - t ≤ gap))
  | .raiseFence .. | .deleteHash .. | .readCache .. | .skipCache .. | .readRow .. | .cacheTryReserveTokenQuota ..
  | .cacheApplyTokenQuotaDelta .. | .expireHash .. => .isTrue trivial

/-- The fence that a mutation has raised is up for as long as it should be. After the mutation has
deleted the hash, there is none, unless the mutation takes longer than its fence and a snapshot has
been published since. -/
def WriterOk (gap now : Int) (fence : Option Int) (hash : Option Hash) : Writer → Prop
  | .start | .done _ => True
  | .raised t => t ≤ now ∧ ∃ u ∈ fence, t + tokenCacheFenceSeconds ≤ u
  | .cleared t =>
    (t ≤ now ∧ ∃ u ∈ fence, t + tokenCacheFenceSeconds ≤ u) ∧
      (hash = none ∨ (t + tokenCacheFenceSeconds ≤ now ∧ 0 ≤ gap))

/-- A snapshot is the row of the database, or it will meet the fence. -/
def ReaderOk (gap : Int) (s : State m n) : Reader → Prop
  | .missed since => since ≤ s.version
  | .snapshot since token v t =>
    since ≤ v ∧ v ≤ s.version ∧ t ≤ s.now ∧ s.history v = some (metadata token) ∧
      (s.row = some token ∨ ∃ u ∈ s.fence, t + gap < u)
  | .returned since token => ∃ v, since ≤ v ∧ v ≤ s.version ∧ s.history v = some (metadata token)
  | _ => True

structure Inv (gap : Int) (s : State m n) : Prop where
  coherent : ∀ h, s.hash = some h → ∃ t, s.row = some t ∧ h.IsOf t
  current : s.history s.version = s.row.map metadata
  fence_le : ∀ u ∈ s.fence, u ≤ s.now + tokenCacheFenceSeconds
  writers : ∀ k, WriterOk gap s.now s.fence s.hash (s.writer k)
  readers : ∀ i, ReaderOk gap s (s.reader i)

variable {c} {window gap : Int}

variable {hash : Option Hash} {s : State m n} {t : Int} {i : Fin n}

theorem inv_init (now : Int) {row : Option Token}
    (hcoherent : ∀ h, hash = some h → ∃ t, row = some t ∧ h.IsOf t) :
      Inv gap (init (m := m) (n := n) now row hash) where
  coherent := hcoherent
  current := rfl
  fence_le := nofun
  writers _ := trivial
  readers _ := trivial

theorem Inv.neverStale (h : Inv gap s) : NeverStale s where
  fresh i since token hi := by
    have hok := h.readers i
    rwa [hi] at hok
  whole hash hhash _ := by
    obtain ⟨t, -, remain, used, accessed, rfl⟩ := h.coherent hash hhash
    rfl

/-! ### Steps -/

theorem Inv.tick (h : Inv gap s) (ht : s.now ≤ t) : Inv gap { s with now := t } := by
  refine ⟨h.coherent, h.current, ?_, ?_, ?_⟩
  · intro u hu
    have := h.fence_le u hu
    show u ≤ t + tokenCacheFenceSeconds
    omega
  · intro k
    have hok := h.writers k
    show WriterOk gap t s.fence s.hash (s.writer k)
    cases hw : s.writer k with
    | start | done => trivial
    | raised t' =>
      rw [hw] at hok
      exact ⟨hok.1.trans ht, hok.2⟩
    | cleared t' =>
      rw [hw] at hok
      obtain ⟨⟨hle, hfence⟩, hhash⟩ := hok
      exact ⟨⟨hle.trans ht, hfence⟩, hhash.imp_right fun hlong => ⟨hlong.1.trans ht, hlong.2⟩⟩
  · intro i
    have hok := h.readers i
    show ReaderOk gap _ (s.reader i)
    cases hr : s.reader i with
    | start | notFound => trivial
    | missed => rwa [hr] at hok
    | returned => rwa [hr] at hok
    | snapshot since token v t' =>
      rw [hr] at hok
      obtain ⟨hsince, hv, hle, hrest⟩ := hok
      exact ⟨hsince, hv, hle.trans ht, hrest⟩

theorem Inv.setReader (h : Inv gap s) {r : Reader} (hr : ReaderOk gap s r) :
    Inv gap (s.setReader i r) := by
  refine { h with readers := ?_ }
  exact (Function.forall_update_iff s.reader fun _ => ReaderOk gap s).2 ⟨hr, fun j _ => h.readers j⟩

/-- The hash changes and is still a hash of the row; a mutation that has deleted the hash allows it.
-/
theorem Inv.setHash (h : Inv gap s)
    (hcoherent : ∀ x, hash = some x → ∃ t, s.row = some t ∧ x.IsOf t)
    (hnone : s.hash = none → hash = none ∨ (¬ s.fenceUp ∧ 0 ≤ gap)) : Inv gap { s with hash := hash } := by
  refine ⟨hcoherent, h.current, h.fence_le, fun k => ?_, h.readers⟩
  have hok := h.writers k
  show WriterOk gap s.now s.fence hash (s.writer k)
  cases hw : s.writer k with
  | start | done => trivial
  | raised t => rwa [hw] at hok
  | cleared t =>
    rw [hw] at hok
    obtain ⟨⟨hle, u, hu, hup⟩, hhash⟩ := hok
    refine ⟨⟨hle, u, hu, hup⟩, ?_⟩
    rcases hhash with hhash | hlong
    · refine (hnone hhash).imp_right fun ⟨hdown, hgap⟩ => ⟨?_, hgap⟩
      have hexpired : ¬ s.now < u := fun hlt => hdown ⟨u, hu, hlt⟩
      omega
    · exact .inr hlong

theorem Inv.dropHash (h : Inv gap s) : Inv gap { s with hash := none } :=
  h.setHash (fun _ hx => by cases hx) fun _ => .inl rfl

/-- The scripts change nothing but the quota fields of a hash of the token. -/
theorem Inv.quotaScript (h : Inv gap s)
    (hscript : hash = s.hash ∨ ∃ id fields remain used accessed, quotaFields id s.hash = some fields ∧
      hash = some { fields.1 with remainQuota := some remain, usedQuota := some used, accessedTime := some accessed }) :
    Inv gap { s with hash := hash } := by
  rcases hscript with rfl | ⟨id, fields, remain, used, accessed, hfields, rfl⟩
  · exact h
  · refine h.setHash ?_ ?_
    · rintro x hx
      cases hx
      cases hhash : s.hash with
      | none =>
        rw [hhash] at hfields
        cases hfields
      | some y =>
        obtain ⟨t, hrow, hof⟩ := h.coherent y hhash
        rw [hhash] at hfields
        exact ⟨t, hrow, isOf_quotaFields hof hfields remain used accessed⟩
    · intro hnone
      rw [hnone] at hfields
      cases hfields

theorem Inv.tryReserve (h : Inv gap s) (id amount now : Int) :
    Inv gap { s with hash := (cacheTryReserveTokenQuota id amount now s.hash).1 } := by
  refine h.quotaScript ?_
  unfold cacheTryReserveTokenQuota
  split
  · exact .inl rfl
  · rename_i x remain used hfields
    split_ifs
    · exact .inl rfl
    · exact .inr ⟨id, _, _, _, _, hfields, rfl⟩

theorem Inv.applyDelta (h : Inv gap s) (id delta now : Int) :
    Inv gap { s with hash := (cacheApplyTokenQuotaDelta id delta now s.hash).1 } := by
  refine h.quotaScript ?_
  unfold cacheApplyTokenQuotaDelta
  split
  · exact .inl rfl
  · rename_i x remain used hfields
    exact .inr ⟨id, _, _, _, _, hfields, rfl⟩

theorem Inv.readCache (h : Inv gap s) (i : Fin n) : Inv gap (s.setReader i (readCache c s)) := by
  refine h.setReader ?_
  unfold Cache.readCache
  split
  · rename_i token htoken
    refine ⟨s.version, le_rfl, le_rfl, ?_⟩
    cases hhash : s.hash with
    | none =>
      rw [hhash] at htoken
      cases htoken
    | some x =>
      obtain ⟨t, hrow, hof⟩ := h.coherent x hhash
      rw [hhash] at htoken
      simp only [cacheGetTokenByKey] at htoken
      split_ifs at htoken
      cases htoken
      rw [h.current, hrow, hof.metadata_eq]
      rfl
  · exact le_refl s.version

theorem Inv.readRow (h : Inv gap s) {since : Nat} (hi : s.reader i = .missed since) :
    Inv gap (s.setReader i (readRow s since)) := by
  have hsince : since ≤ s.version := by
    have hok := h.readers i
    rwa [hi] at hok
  refine h.setReader ?_
  unfold Cache.readRow
  split
  · rename_i token hrow
    refine ⟨hsince, le_rfl, le_rfl, ?_, .inl hrow⟩
    rw [h.current, hrow]
    rfl
  · trivial

/-- A snapshot that is published is the row of the database: an old one would meet the fence. -/
theorem Inv.initToken (h : Inv gap s) {since v : Nat} {token : Token}
    (hi : s.reader i = .snapshot since token v t) (hgap : s.now - t ≤ gap) :
    Inv gap ({ s with hash := initHash s token }.setReader i (.returned since token)) := by
  have hok := h.readers i
  rw [hi] at hok
  obtain ⟨hsince, hv, hle, hmeta, hcur⟩ := hok
  have hreturned : ReaderOk gap { s with hash := initHash s token } (.returned since token) := ⟨v, hsince, hv, hmeta⟩
  suffices hhash : Inv gap { s with hash := initHash s token } from hhash.setReader hreturned
  unfold initHash
  split_ifs with hup
  · exact h
  · split
    · rename_i x hx
      rw [← hx]
      exact h
    · refine h.setHash ?_ fun _ => .inr ⟨hup, by omega⟩
      rintro x hx
      cases hx
      rcases hcur with hrow | ⟨u, hu, hlate⟩
      · exact ⟨token, hrow, isOf_ofToken token⟩
      · exact absurd ⟨u, hu, by omega⟩ hup

theorem Inv.setWriter (h : Inv gap s) {k : Fin m} {w : Writer}
    (hw : WriterOk gap s.now s.fence s.hash w) : Inv gap (s.setWriter k w) := by
  refine { h with writers := ?_ }
  exact (Function.forall_update_iff s.writer fun _ => WriterOk gap s.now s.fence s.hash).2
    ⟨hw, fun j _ => h.writers j⟩

theorem Inv.setFence (h : Inv gap s) :
    Inv gap { s with fence := some (s.now + tokenCacheFenceSeconds) } := by
  have hlater : ∀ x, (∃ u ∈ s.fence, x ≤ u) → ∃ u ∈ some (s.now + tokenCacheFenceSeconds), x ≤ u := by
    rintro x ⟨u, hu, hx⟩
    exact ⟨_, rfl, hx.trans (h.fence_le u hu)⟩
  refine ⟨h.coherent, h.current, ?_, ?_, ?_⟩
  · rintro u hu
    cases hu
    exact le_rfl
  · intro k
    have hok := h.writers k
    show WriterOk gap s.now (some (s.now + tokenCacheFenceSeconds)) s.hash (s.writer k)
    cases hw : s.writer k with
    | start | done => trivial
    | raised t =>
      rw [hw] at hok
      exact ⟨hok.1, hlater _ hok.2⟩
    | cleared t =>
      rw [hw] at hok
      exact ⟨⟨hok.1.1, hlater _ hok.1.2⟩, hok.2⟩
  · intro i
    have hok := h.readers i
    show ReaderOk gap _ (s.reader i)
    cases hr : s.reader i with
    | start | notFound => trivial
    | missed => rwa [hr] at hok
    | returned => rwa [hr] at hok
    | snapshot since token v t =>
      rw [hr] at hok
      obtain ⟨hsince, hv, hle, hmeta, hcur⟩ := hok
      exact ⟨hsince, hv, hle, hmeta, hcur.imp_right (hlater (t + gap + 1))⟩

/-- At the commit there is no hash, and the fence will be up when a snapshot read before is
published. -/
theorem Inv.commit (h : Inv gap s) (hsum : window + gap < tokenCacheFenceSeconds) {k : Fin m}
    (hk : s.writer k = .cleared t) (hwindow : s.now - t ≤ window) (mutation : Mutation) :
    Inv gap (s.commit mutation) := by
  have hok := h.writers k
  rw [hk] at hok
  obtain ⟨⟨hle, u, hu, hup⟩, hhash⟩ := hok
  have hnone : s.hash = none := by
    rcases hhash with hhash | ⟨hlong, hgap⟩
    · exact hhash
    · omega
  have hpast : ∀ v, v ≤ s.version → (s.commit mutation).history v = s.history v := by
    intro v hv
    exact Function.update_of_ne (by omega) _ _
  refine ⟨?_, ?_, h.fence_le, h.writers, ?_⟩
  · intro x hx
    have hx : s.hash = some x := hx
    rw [hnone] at hx
    cases hx
  · exact Function.update_self _ _ _
  · intro i
    have hok := h.readers i
    show ReaderOk gap (s.commit mutation) (s.reader i)
    cases hr : s.reader i with
    | start | notFound => trivial
    | missed since =>
      rw [hr] at hok
      exact Nat.le_succ_of_le hok
    | returned since token =>
      rw [hr] at hok
      obtain ⟨v, hsince, hv, hmeta⟩ := hok
      exact ⟨v, hsince, Nat.le_succ_of_le hv, (hpast v hv).trans hmeta⟩
    | snapshot since token v t' =>
      rw [hr] at hok
      obtain ⟨hsince, hv, hle', hmeta, -⟩ := hok
      refine ⟨hsince, Nat.le_succ_of_le hv, hle', (hpast v hv).trans hmeta, .inr ⟨u, hu, ?_⟩⟩
      omega

theorem Inv.stepNow {s' : State m n} {a : Action m n} (h : Inv gap s) (hsum : window + gap < tokenCacheFenceSeconds)
    (hnow : s.now = a.now) (ha : Timely window gap s a) (hstep : stepNow c s a = some s') : Inv gap s' := by
  cases a with simp only [Cache.stepNow] at hstep
  | raiseFence k now =>
    split_ifs at hstep
    cases hstep
    exact h.setFence.setWriter ⟨le_rfl, _, rfl, le_rfl⟩
  | deleteHash k now =>
    split at hstep
    · rename_i t hk
      cases hstep
      have hok := h.writers k
      rw [hk] at hok
      exact h.dropHash.setWriter ⟨hok, .inl rfl⟩
    · cases hstep
  | commit k now =>
    split at hstep
    · rename_i t hk
      cases hstep
      have hwindow : s.now - t ≤ window := hnow ▸ ha t (by rw [hk]; rfl)
      exact (h.commit hsum hk hwindow (c.mutation k)).setWriter trivial
    · cases hstep
  | readCache i now =>
    split_ifs at hstep
    cases hstep
    exact h.readCache i
  | skipCache i now =>
    split_ifs at hstep
    cases hstep
    exact h.setReader (le_refl s.version)
  | readRow i now =>
    split at hstep
    · rename_i since hi
      cases hstep
      exact h.readRow hi
    · cases hstep
  | cacheInitToken i now =>
    split at hstep
    · rename_i since token v t hi
      cases hstep
      exact h.initToken hi (hnow ▸ ha t (by rw [hi]; rfl))
    · cases hstep
  | cacheTryReserveTokenQuota id amount now =>
    cases hstep
    exact h.tryReserve id amount now
  | cacheApplyTokenQuotaDelta id delta now =>
    cases hstep
    exact h.applyDelta id delta now
  | expireHash now =>
    cases hstep
    exact h.dropHash

theorem Inv.step {s' : State m n} {a : Action m n} (h : Inv gap s) (hsum : window + gap < tokenCacheFenceSeconds)
    (ha : Timely window gap s a) (hstep : step c s a = some s') : Inv gap s' := by
  unfold Cache.step at hstep
  split_ifs at hstep with hnow
  refine (h.tick hnow).stepNow hsum rfl ?_ hstep
  cases a <;> exact ha

/-- If the time from a fence to its commit and the time from a database read to its publication are
together below the time that the fence is up, no `GetTokenByKey` returns metadata older than a
mutation that had returned when the call started, and no hash has quota fields without an id. -/
theorem cache_never_stale (c : Calls m) (window gap now : Int) (hsum : window + gap < tokenCacheFenceSeconds)
    (row : Option Token) (hash : Option Hash) (hcoherent : ∀ h, hash = some h → ∃ t, row = some t ∧ h.IsOf t)
    (l : List (Action m n)) (s : State m n) (hrun : run (step c) (init now row hash) l = some s)
    (hl : Along (step c) (Timely window gap) (init now row hash) l) : NeverStale s := by
  have hinv : Inv gap s :=
    run_inv_along (fun _ _ _ h ha hstep => h.step hsum ha hstep) (inv_init now hcoherent) hl hrun
  exact hinv.neverStale

def cachedToken : Token where
  id := 1
  userId := 1
  key := "k"
  status := .enabled
  name := "token"
  createdTime := 0
  accessedTime := 0
  expiredTime := -1
  remainQuota := 100
  unlimitedQuota := false
  modelLimitsEnabled := false
  modelLimits := ""
  allowIps := none
  usedQuota := 0

/-- A reader has read the row when a mutation disables the token, and it publishes after the commit.
The hash is not written, and the second reader sees the token as disabled. -/
def disableWhileReading (w : Fin 1) (i j : Fin 2) : List (Action 1 2) :=
  [.readCache i 0, .readRow i 1, .raiseFence w 2, .deleteHash w 2, .commit w 4, .cacheInitToken i 5, .readCache j 6,
    .readRow j 6, .cacheInitToken j 7]

theorem cache_never_stale_disable :
    ∃ s : State 1 2, run (step ⟨"k", fun _ => .selectUpdate 0 .disabled⟩) (init 0 (some cachedToken) none)
        (disableWhileReading 0 0 1) = some s ∧
      s.reader 1 = .returned 1 { cachedToken with status := .disabled } ∧ NeverStale s := by
  obtain ⟨s, hs, h⟩ : ∃ s : State 1 2, run (step ⟨"k", fun _ => .selectUpdate 0 .disabled⟩)
      (init 0 (some cachedToken) none) (disableWhileReading 0 0 1) = some s ∧
      s.reader 1 = .returned 1 { cachedToken with status := .disabled } := ⟨_, rfl, by decide +kernel⟩
  exact ⟨s, hs, h, cache_never_stale _ 2 4 0 (by decide) _ _ (fun _ hx => by cases hx) _ s hs (by decide +kernel)⟩

end TokenEra.Tokens.Cache
