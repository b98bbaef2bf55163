/-
**The pool of xmux clients** (`transport/v2rayxhttp/mux.go`).

A dial takes a client from the pool.  A client that is used up is thrown out at the next request: it
is closed if nothing uses it, and retired otherwise; retired clients are closed by a later sweep.
`Reset` closes everything.  Whether a client is in use is read from counters that the connections
change at any time, and from the time at which it was last handed out.

The lists are changed under a mutex and the clients to close are closed by the same call, so a run
is a sequence of calls with changes of the counters between them.  Clients are numbered in the order
of their creation.  The clock and the random draws are inputs of the calls.

* `XmuxManager.moves_pruneLoop`, `XmuxManager.moves_sweepLoop` — the loops only move
  clients, and pick quiet ones;
* `XmuxManager.accounted_step` — **the step lemma**: every client stays accounted for;
* `XmuxManager.pool_accounting` — every client is in one place along every run.
-/

import SingBox.Schedule
import Mathlib.Tactic.Ring

namespace SingBox

open List Option

/-! ### Clients -/

/-- `XmuxClient`.  Times are in nanoseconds; `connClosed` is what `IsClosed` of its connection
returns. -/
structure XmuxClient where
  connClosed : Bool := false
  openUsage : Int32 := 0
  leftUsage : Int32 := -1
  leftRequests : Int32 := 0
  unreusableAt : Option ℤ := none
  inflightPosts : Int32 := 0
  handedOutAt : ℤ := 0
  closePlanned : Bool := false

def xmuxHandoutCloseGrace : ℤ := 5 * 1000000000

namespace XmuxClient

/-- `idleLocked`. -/
def idleLocked (c : XmuxClient) (now : ℤ) : Bool :=
  !c.closePlanned && c.openUsage == 0 && c.inflightPosts == 0 &&
    decide (xmuxHandoutCloseGrace ≤ now - c.handedOutAt)

/-- The client is thrown out of the pool. -/
def usedUp (c : XmuxClient) (now : ℤ) : Bool :=
  c.connClosed || c.leftUsage == 0 || decide (c.leftRequests ≤ 0) ||
    match c.unreusableAt with
    | none => false
    | some t => decide (t < now)

/-- No connection is open, no post is in flight, and the grace period is over. -/
def Quiet (c : XmuxClient) (now : ℤ) : Prop :=
  c.openUsage = 0 ∧ c.inflightPosts = 0 ∧ xmuxHandoutCloseGrace ≤ now - c.handedOutAt

/-- What decides whether a client is quiet. -/
def use (c : XmuxClient) : Int32 × Int32 × ℤ := (c.openUsage, c.inflightPosts, c.handedOutAt)

/-- What a request leaves as it is. -/
def held (c : XmuxClient) : Int32 × Bool := (c.openUsage, c.closePlanned)

theorem quiet_congr {c c' : XmuxClient} (h : c'.use = c.use) {now : ℤ} :
    c'.Quiet now ↔ c.Quiet now := by
  simp only [use, Prod.mk.injEq] at h
  rw [Quiet, Quiet, h.1, h.2.1, h.2.2]

theorem quiet_of_idleLocked {c : XmuxClient} {now : ℤ} (h : c.idleLocked now = true) :
    c.Quiet now := by
  simp only [idleLocked, Bool.and_eq_true, beq_iff_eq, decide_eq_true_eq] at h
  exact ⟨h.1.1.2, h.1.2, h.2⟩

end XmuxClient

/-! ### The pool -/

/-- `XmuxManager`.  `clients` holds the clients created so far, and `closed` lists the calls of
`Close` on them, in order. -/
structure XmuxManager where
  (concurrency connections : Int32)
  clients : List XmuxClient := []
  (xmuxClients retired closed : List ℕ := [])

/-- What a request draws at random, and the two times it reads when it creates a client. -/
structure XmuxDraw where
  index : ℕ := 0
  (reuseTimes requestTimes reusableSecs : Int32 := 0)
  (limitedFrom handedOutAt : ℤ := 0)

namespace XmuxManager

/-- `NewXmuxManager`, with the limits it has drawn. -/
def new (concurrency connections : Int32) : XmuxManager :=
  { concurrency := concurrency, connections := connections }

/-- The number of clients created so far. -/
def created (m : XmuxManager) : ℕ := m.clients.length

/-- The client with a number. -/
def client (m : XmuxManager) (id : ℕ) : XmuxClient := m.clients.getD id {}

/-- One client is changed. -/
def modify (m : XmuxManager) (id : ℕ) (f : XmuxClient → XmuxClient) : XmuxManager :=
  { m with clients := m.clients.modify id f }

/-- `closePlanned` is set. -/
def plan (m : XmuxManager) (id : ℕ) : XmuxManager :=
  m.modify id fun c => { c with closePlanned := true }

/-- `closeXmuxClients`: every connection of the pool can be closed. -/
def closeXmuxClients (m : XmuxManager) (ids : List ℕ) : XmuxManager :=
  { ids.foldl (fun m id => m.modify id fun c => { c with connClosed := true }) m with
    closed := m.closed ++ ids }

/-- The loop of `getXmuxClientLocked` over the pool, of which `kept` has been gone through. -/
def pruneLoop (now : ℤ) : List ℕ → List ℕ → List ℕ → XmuxManager → List ℕ × XmuxManager
  | kept, [], toClose, m => (toClose, { m with xmuxClients := kept })
  | kept, id :: rest, toClose, m =>
    if (m.client id).usedUp now then
      if (m.client id).idleLocked now then pruneLoop now kept rest (toClose ++ [id]) (m.plan id)
      else pruneLoop now kept rest toClose { m with retired := m.retired ++ [id] }
    else pruneLoop now (kept ++ [id]) rest toClose m

/-- The loop of `sweepRetiredLocked`, of which `kept` has been gone through. -/
def sweepLoop (now : ℤ) : List ℕ → List ℕ → List ℕ → XmuxManager → List ℕ × XmuxManager
  | kept, [], toClose, m => (toClose, { m with retired := kept })
  | kept, id :: rest, toClose, m =>
    if (m.client id).idleLocked now then
      sweepLoop now kept rest (toClose ++ [id]) (m.plan id)
    else sweepLoop now (kept ++ [id]) rest toClose m

/-- `sweepRetiredLocked`. -/
def sweepRetiredLocked (m : XmuxManager) (now : ℤ) : List ℕ × XmuxManager :=
  sweepLoop now [] m.retired [] m

/-- `newXmuxClient`, with the number of the new client. -/
def newXmuxClient (m : XmuxManager) (draw : XmuxDraw) : ℕ × XmuxManager :=
  let c : XmuxClient :=
    { leftUsage := if 0 < draw.reuseTimes then draw.reuseTimes - 1 else -1
      leftRequests := if 0 < draw.requestTimes then draw.requestTimes else Int32.maxValue
      unreusableAt :=
        if 0 < draw.reusableSecs then
          some (draw.limitedFrom + draw.reusableSecs.toInt * 1000000000)
        else none
      handedOutAt := draw.handedOutAt }
  (m.created, { m with
    clients := m.clients ++ [c]
    xmuxClients := m.xmuxClients ++ [m.created] })

/-- The clients of the pool that may take another connection. -/
def candidates (m : XmuxManager) : List ℕ :=
  if 0 < m.concurrency then
    m.xmuxClients.filter fun id => decide ((m.client id).openUsage < m.concurrency)
  else m.xmuxClients

/-- What `getXmuxClientLocked` does after the loops: it creates a client or picks one. -/
def chooseClient (m : XmuxManager) (now : ℤ) (draw : XmuxDraw) : ℕ × XmuxManager :=
  if m.xmuxClients = [] then m.newXmuxClient draw
  else if 0 < m.connections ∧ (m.xmuxClients.length : ℤ) < m.connections.toInt then
    m.newXmuxClient draw
  else
    match m.candidates[draw.index % m.candidates.length]? with
    | none => m.newXmuxClient draw
    | some id =>
      (id, m.modify id fun c =>
        { c with
          leftUsage := if 0 < c.leftUsage then c.leftUsage - 1 else c.leftUsage
          handedOutAt := now })

/-- `getXmuxClientLocked`: the client, the clients to close, and the pool. -/
def getXmuxClientLocked (m : XmuxManager) (now : ℤ) (draw : XmuxDraw) :
    ℕ × List ℕ × XmuxManager :=
  let pruned := pruneLoop now [] m.xmuxClients [] m
  let swept := pruned.2.sweepRetiredLocked now
  let chosen := swept.2.chooseClient now draw
  (chosen.1, pruned.1 ++ swept.1, chosen.2)

/-- `GetXmuxClient`. -/
def getXmuxClient (m : XmuxManager) (now : ℤ) (draw : XmuxDraw) : ℕ × XmuxManager :=
  let result := m.getXmuxClientLocked now draw
  (result.1, result.2.2.closeXmuxClients result.2.1)

/-- `SweepRetired`. -/
def sweepRetired (m : XmuxManager) (now : ℤ) : XmuxManager :=
  let swept := m.sweepRetiredLocked now
  swept.2.closeXmuxClients swept.1

/-- `Reset`. -/
def reset (m : XmuxManager) : XmuxManager :=
  let toClose := m.xmuxClients ++ m.retired
  closeXmuxClients { toClose.foldl plan m with xmuxClients := [], retired := [] } toClose

end XmuxManager

/-! ### Runs -/

/-- A call of the pool, or a change of what is counted on a client. -/
inductive PoolEvent where
  | getXmuxClient (now : ℤ) (draw : XmuxDraw)
  | sweepRetired (now : ℤ)
  | reset
  | change (id : ℕ) (openUsage inflightPosts leftRequests : Int32) (connClosed : Bool)

namespace XmuxManager

/-- A step of a run.  Only clients that exist can be changed. -/
def step (m : XmuxManager) : PoolEvent → Option XmuxManager
  | .getXmuxClient now draw => some (m.getXmuxClient now draw).2
  | .sweepRetired now => some (m.sweepRetired now)
  | .reset => some m.reset
  | .change id openUsage inflightPosts leftRequests connClosed =>
    if id < m.created then
      some (m.modify id fun c =>
        { c with
          openUsage := openUsage
          inflightPosts := inflightPosts
          leftRequests := leftRequests
          connClosed := connClosed })
    else none

/-! ### The loops move clients -/

/-- How often a client is in the pool, on the list of retired clients and closed. -/
def places (m : XmuxManager) (id : ℕ) : ℕ :=
  m.xmuxClients.count id + m.retired.count id + m.closed.count id

/-- No client is used differently. -/
def SameUse (m m' : XmuxManager) : Prop := ∀ id, (m'.client id).use = (m.client id).use

theorem SameUse.trans {m m' m'' : XmuxManager} (h : SameUse m m') (h' : SameUse m' m'') :
    SameUse m m'' := fun id => (h' id).trans (h id)

variable (m : XmuxManager)

variable {f : XmuxClient → XmuxClient}

theorem client_modify_of_ne {id id' : ℕ} (h : id' ≠ id) :
    (m.modify id f).client id' = m.client id' := by
  simp only [client, modify, getD_eq_getElem?_getD, getElem?_modify_ne _ _ h.symm]

theorem client_modify (f : XmuxClient → XmuxClient) {id : ℕ} (hid : id < m.created) (id' : ℕ) :
    (m.modify id f).client id' = if id' = id then f (m.client id) else m.client id' := by
  split
  · rename_i h
    rw [h, client, modify, getD_eq_getElem?_getD, getElem?_modify_eq, client,
      getD_eq_getElem?_getD, getElem?_eq_getElem hid]
    rfl
  · rename_i h
    exact m.client_modify_of_ne h

theorem apply_client_modify {α : Type} (g : XmuxClient → α) (id : ℕ) (hf : ∀ c, g (f c) = g c)
    (id' : ℕ) : g ((m.modify id f).client id') = g (m.client id') := by
  by_cases hid : id < m.created
  · rw [client_modify m f hid]
    split
    · rename_i h
      rw [hf, h]
    · rfl
  · rw [modify, modify_eq_self (by rw [created] at hid; omega)]

theorem sameUse_modify (id : ℕ) (hf : ∀ c, (f c).use = c.use) : SameUse m (m.modify id f) :=
  fun id' => m.apply_client_modify XmuxClient.use id hf id'

/-- The clients `toClose` are taken out, and they are quiet.  No other close is planned. -/
structure Moves (now : ℤ) (m m' : XmuxManager) (toClose : List ℕ) : Prop where
  created : m'.created = m.created
  closed : m'.closed = m.closed
  sameUse : SameUse m m'
  planned : ∀ id ∉ toClose, (m'.client id).closePlanned = (m.client id).closePlanned
  places : ∀ id, m'.places id + toClose.count id = m.places id
  quiet : ∀ id ∈ toClose, (m.client id).Quiet now

theorem Moves.trans {now : ℤ} {m m' m'' : XmuxManager} {toClose toClose' : List ℕ}
    (h : Moves now m m' toClose) (h' : Moves now m' m'' toClose') :
    Moves now m m'' (toClose ++ toClose') where
  created := h'.created.trans h.created
  closed := h'.closed.trans h.closed
  sameUse := h.sameUse.trans h'.sameUse
  planned id hid := by
    rw [List.mem_append, not_or] at hid
    rw [h'.planned id hid.2, h.planned id hid.1]
  places id := by
    have hfirst := h.places id
    have hsecond := h'.places id
    rw [count_append]
    omega
  quiet id hid := by
    rcases List.mem_append.1 hid with hid | hid
    · exact h.quiet id hid
    · exact (XmuxClient.quiet_congr (h.sameUse id)).1 (h'.quiet id hid)

theorem sameUse_plan (id : ℕ) : SameUse m (m.plan id) := m.sameUse_modify id fun _ => rfl

variable (now : ℤ)

theorem moves_nil {m m' : XmuxManager} (hclients : m'.clients = m.clients)
    (hclosed : m'.closed = m.closed) (hplaces : ∀ id, m'.places id = m.places id) :
    Moves now m m' [] where
  created := congrArg List.length hclients
  closed := hclosed
  sameUse id := by rw [client, hclients, client]
  planned id _ := by rw [client, hclients, client]
  places id := by rw [count_nil, Nat.add_zero, hplaces]
  quiet id hid := by simp at hid

theorem moves_plan {now : ℤ} {m m' : XmuxManager} {id : ℕ}
    (hid : (m.client id).idleLocked now = true) (hclients : m'.clients = (m.plan id).clients)
    (hclosed : m'.closed = m.closed)
    (hplaces : ∀ id', m'.places id' + [id].count id' = m.places id') : Moves now m m' [id] where
  created := (congrArg List.length hclients).trans (List.length_modify ..)
  closed := hclosed
  sameUse id' := by
    rw [client, hclients]
    exact sameUse_plan m id id'
  planned id' hid' := by
    rw [client, hclients]
    exact congrArg _ (m.client_modify_of_ne fun h => hid' (List.mem_singleton.2 h))
  places := hplaces
  quiet id' hid' := by
    rw [List.mem_singleton.1 hid']
    exact XmuxClient.quiet_of_idleLocked hid

variable (kept rest toClose : List ℕ)

/-- **The loop over the pool** takes out quiet clients, and moves others to the retired ones. -/
theorem moves_pruneLoop (m : XmuxManager) :
    ∃ picked, (pruneLoop now kept rest toClose m).1 = toClose ++ picked ∧
      Moves now { m with xmuxClients := kept ++ rest } (pruneLoop now kept rest toClose m).2
        picked := by
  induction rest generalizing kept toClose m with
  | nil =>
    refine ⟨[], (append_nil _).symm, ?_⟩
    rw [append_nil]
    exact moves_nil now rfl rfl fun _ => rfl
  | cons id rest ih =>
    rw [pruneLoop]
    split
    · split
      · rename_i hidle
        obtain ⟨picked, hpicked, hmoves⟩ := ih kept (toClose ++ [id]) (m.plan id)
        refine ⟨[id] ++ picked, by rw [hpicked, append_assoc], Moves.trans ?_ hmoves⟩
        refine moves_plan hidle rfl rfl fun id' => ?_
        simp only [places, plan, modify, count_append, count_cons, count_nil]
        omega
      · obtain ⟨picked, hpicked, hmoves⟩ := ih kept toClose { m with retired := m.retired ++ [id] }
        refine ⟨[] ++ picked, by rw [hpicked, nil_append], Moves.trans ?_ hmoves⟩
        refine moves_nil now rfl rfl fun id' => ?_
        simp only [places, count_append, count_cons, count_nil]
        omega
    · obtain ⟨picked, hpicked, hmoves⟩ := ih (kept ++ [id]) toClose m
      rw [append_assoc, singleton_append] at hmoves
      exact ⟨picked, hpicked, hmoves⟩

/-- **The loop over the retired clients** takes out quiet ones. -/
theorem moves_sweepLoop (m : XmuxManager) :
    ∃ picked, (sweepLoop now kept rest toClose m).1 = toClose ++ picked ∧
      Moves now { m with retired := kept ++ rest } (sweepLoop now kept rest toClose m).2
        picked := by
  induction rest generalizing kept toClose m with
  | nil =>
    refine ⟨[], (append_nil _).symm, ?_⟩
    rw [append_nil]
    exact moves_nil now rfl rfl fun _ => rfl
  | cons id rest ih =>
    rw [sweepLoop]
    split
    · rename_i hidle
      obtain ⟨picked, hpicked, hmoves⟩ := ih kept (toClose ++ [id]) (m.plan id)
      refine ⟨[id] ++ picked, by rw [hpicked, append_assoc], Moves.trans ?_ hmoves⟩
      refine moves_plan hidle rfl rfl fun id' => ?_
      simp only [places, plan, modify, count_append, count_cons, count_nil]
      omega
    · obtain ⟨picked, hpicked, hmoves⟩ := ih (kept ++ [id]) toClose m
      rw [append_assoc, singleton_append] at hmoves
      exact ⟨picked, hpicked, hmoves⟩

theorem mem_sweepLoop {id : ℕ} (hid : id ∈ rest) (m : XmuxManager)
    (hidle : (m.client id).idleLocked now = true) :
    id ∈ (sweepLoop now kept rest toClose m).1 := by
  induction rest generalizing kept toClose m with
  | nil => cases hid
  | cons id' rest ih =>
    rw [sweepLoop]
    by_cases heq : id = id'
    · obtain ⟨picked, hpicked, -⟩ := moves_sweepLoop now kept rest (toClose ++ [id']) (m.plan id')
      rw [← heq] at hpicked ⊢
      simp [hidle, hpicked]
    · have hrest := (List.mem_cons.1 hid).resolve_left heq
      split
      · -- The plan of another client leaves this one idle.
        exact ih _ _ hrest _ (by rw [plan, client_modify_of_ne m heq, hidle])
      · exact ih _ _ hrest _ hidle

theorem moves_sweepRetiredLocked :
    Moves now m (m.sweepRetiredLocked now).2 (m.sweepRetiredLocked now).1 := by
  obtain ⟨picked, hpicked, hmoves⟩ := moves_sweepLoop now [] m.retired [] m
  rw [nil_append] at hpicked
  rw [sweepRetiredLocked, hpicked]
  exact hmoves

variable (draw : XmuxDraw)

theorem exists_moves_client :
    ∃ m', Moves now m m' (m.getXmuxClientLocked now draw).2.1 ∧
      (m.getXmuxClientLocked now draw).1 = (m'.chooseClient now draw).1 ∧
      (m.getXmuxClientLocked now draw).2.2 = (m'.chooseClient now draw).2 := by
  obtain ⟨picked, hpicked, hmoves⟩ := moves_pruneLoop now [] m.xmuxClients [] m
  rw [nil_append] at hpicked
  refine ⟨((pruneLoop now [] m.xmuxClients [] m).2.sweepRetiredLocked now).2, ?_, rfl, rfl⟩
  have h := Moves.trans hmoves (moves_sweepRetiredLocked _ now)
  rw [← hpicked] at h
  exact h

/-! ### Every client is accounted for -/

/-- Each created client is in one place, where the clients `toClose` are about to be closed. -/
def AccountedWith (m : XmuxManager) (toClose : List ℕ) : Prop :=
  ∀ id, m.places id + toClose.count id = if id < m.created then 1 else 0

/-- Each created client is in the pool, retired or closed, once. -/
def Accounted (m : XmuxManager) : Prop := m.AccountedWith []

variable {toClose : List ℕ}

theorem Moves.accountedWith {now : ℤ} {m m' : XmuxManager}
    (h : Moves now m m' toClose) (hm : m.Accounted) : m'.AccountedWith toClose := by
  intro id
  have hid := hm id
  rw [count_nil, Nat.add_zero] at hid
  rw [h.places, h.created, hid]

theorem places_newXmuxClient (id : ℕ) :
    (m.newXmuxClient draw).2.places id = m.places id + if m.created = id then 1 else 0 := by
  simp only [newXmuxClient, places, count_append, count_singleton, beq_iff_eq]
  omega

theorem chooseClient_cases :
    m.chooseClient now draw = m.newXmuxClient draw ∨
      ∃ id ∈ m.candidates, ∃ f : XmuxClient → XmuxClient,
        (∀ c, (f c).held = c.held) ∧ m.chooseClient now draw = (id, m.modify id f) := by
  rw [chooseClient]
  split
  · exact .inl rfl
  · split
    · exact .inl rfl
    · split
      · exact .inl rfl
      · rename_i id hid
        refine .inr ⟨id, mem_of_getElem? hid, fun c =>
          { c with
            leftUsage := if 0 < c.leftUsage then c.leftUsage - 1 else c.leftUsage
            handedOutAt := now }, fun _ => rfl, rfl⟩

variable {m}

theorem accountedWith_newXmuxClient
    (hm : m.AccountedWith toClose) : (m.newXmuxClient draw).2.AccountedWith toClose := by
  intro id
  have hid := hm id
  have hcreated : (m.newXmuxClient draw).2.created = m.created + 1 := length_append
  rw [places_newXmuxClient, hcreated]
  rcases Nat.lt_trichotomy id m.created with h | h | h
  · rw [if_pos h] at hid
    rw [if_neg h.ne', if_pos (by omega)]
    omega
  · -- The number of the new client has not been given before.
    rw [if_neg (by omega)] at hid
    rw [if_pos h.symm, if_pos (by omega)]
    omega
  · rw [if_neg (by omega)] at hid
    rw [if_neg h.ne, if_neg (by omega)]
    omega

theorem accountedWith_modify (id : ℕ) (f : XmuxClient → XmuxClient) (hm : m.AccountedWith toClose) :
    (m.modify id f).AccountedWith toClose := by
  intro id'
  rw [created, modify, length_modify]
  exact hm id'

theorem accountedWith_chooseClient (hm : m.AccountedWith toClose) :
    (m.chooseClient now draw).2.AccountedWith toClose := by
  rcases m.chooseClient_cases now draw with h | ⟨id, -, f, -, h⟩
  · rw [h]
    exact accountedWith_newXmuxClient draw hm
  · rw [h]
    exact accountedWith_modify _ _ hm

theorem exists_foldl_modify (f : XmuxClient → XmuxClient) (ids : List ℕ) (m : XmuxManager) :
    ∃ clients, ids.foldl (fun m id => m.modify id f) m = { m with clients := clients } ∧
      clients.length = m.created := by
  induction ids generalizing m with
  | nil => exact ⟨m.clients, rfl, rfl⟩
  | cons id ids ih =>
    obtain ⟨clients, hclients, hlen⟩ := ih (m.modify id f)
    exact ⟨clients, hclients, hlen.trans (length_modify ..)⟩

theorem accounted_closeXmuxClients
    (hm : m.AccountedWith toClose) : (m.closeXmuxClients toClose).Accounted := by
  obtain ⟨clients, hclients, hlen⟩ :=
    exists_foldl_modify (fun c => { c with connClosed := true }) toClose m
  intro id
  have hid := hm id
  rw [← hlen] at hid
  rw [closeXmuxClients, hclients, created]
  simp only [places, count_append, count_nil] at hid ⊢
  omega

theorem reset_eq (m : XmuxManager) :
    m.reset.xmuxClients = [] ∧ m.reset.retired = [] ∧ m.reset.created = m.created ∧
      m.reset.closed = m.closed ++ (m.xmuxClients ++ m.retired) := by
  obtain ⟨clients, hclients, hlen⟩ :=
    exists_foldl_modify (fun c => { c with closePlanned := true }) (m.xmuxClients ++ m.retired) m
  have hplan : (m.xmuxClients ++ m.retired).foldl plan m = { m with clients := clients } := hclients
  obtain ⟨clients', hclients', hlen'⟩ := exists_foldl_modify
    (fun c => { c with connClosed := true }) (m.xmuxClients ++ m.retired)
    { m with clients := clients, xmuxClients := [], retired := [] }
  rw [reset, hplan, closeXmuxClients, hclients']
  exact ⟨rfl, rfl, hlen'.trans hlen, rfl⟩

theorem accounted_reset (hm : m.Accounted) : m.reset.Accounted := by
  obtain ⟨hactive, hretired, hcreated, hclosed⟩ := m.reset_eq
  intro id
  have hid := hm id
  rw [places, hactive, hretired, hcreated, hclosed]
  simp only [places, count_append, count_nil] at hid ⊢
  omega

/-- **The step lemma.**  Every step keeps every client accounted for. -/
theorem accounted_step (m : XmuxManager) (e : PoolEvent) (m' : XmuxManager)
    (h : m.step e = some m') (hm : m.Accounted) : m'.Accounted := by
  cases e with
  | getXmuxClient now draw =>
    obtain rfl := some.inj h
    obtain ⟨moved, hmoves, -, hchosen⟩ := m.exists_moves_client now draw
    rw [getXmuxClient, hchosen]
    exact accounted_closeXmuxClients (accountedWith_chooseClient now draw (hmoves.accountedWith hm))
  | sweepRetired now =>
    obtain rfl := some.inj h
    exact accounted_closeXmuxClients ((m.moves_sweepRetiredLocked now).accountedWith hm)
  | reset =>
    obtain rfl := some.inj h
    exact accounted_reset hm
  | change id openUsage inflightPosts leftRequests connClosed =>
    rw [step] at h
    split at h
    · obtain rfl := some.inj h
      exact accountedWith_modify _ _ hm
    · cases h

/-- **The run lemma.** -/
theorem accounted_run {concurrency connections : Int32} {events : List PoolEvent}
    (hrun : Schedule.run step (new concurrency connections) events = some m) :
    m.Accounted :=
  Schedule.run_invariant_always accounted_step hrun fun id => by
    simp [places, new, created]

/-- **The pool keeps account of its clients.**  After every run each client created so far is in
exactly one of the pool, the retired clients and the closed ones, and is closed at most once; a
request or a sweep picks only quiet clients to close; and `Reset` closes every client. -/
theorem pool_accounting {concurrency connections : Int32} {events : List PoolEvent}
    {m : XmuxManager} (hrun : Schedule.run step (new concurrency connections) events = some m) :
    (∀ id < m.created, m.xmuxClients.count id + m.retired.count id + m.closed.count id = 1) ∧
      (∀ now draw, ∀ id ∈ (m.getXmuxClientLocked now draw).2.1, (m.client id).Quiet now) ∧
      (∀ now, ∀ id ∈ (m.sweepRetiredLocked now).1, (m.client id).Quiet now) ∧
      ∀ id < m.created, id ∈ m.reset.closed := by
  have hm := accounted_run hrun
  refine ⟨fun id hid => ?_, fun now draw id hid => ?_, fun now id hid => ?_, fun id hid => ?_⟩
  · have h := hm id
    rw [if_pos hid] at h
    exact h
  · obtain ⟨m', hmoves, -⟩ := m.exists_moves_client now draw
    exact hmoves.quiet id hid
  · exact (m.moves_sweepRetiredLocked now).quiet id hid
  · have h := accounted_reset hm id
    obtain ⟨hactive, hretired, hcreated, -⟩ := m.reset_eq
    rw [places, hactive, hretired, hcreated, if_pos hid] at h
    rw [← count_pos_iff]
    simp only [count_nil] at h
    omega

/-- The first client may be used once.  It is busy when the second request throws it out, and free
when it is swept. -/
def rotation : List PoolEvent :=
  [.getXmuxClient 0 { reuseTimes := 1 }, .change 0 1 0 600 false,
    .getXmuxClient 10000000000 { handedOutAt := 10000000000 }, .change 0 0 0 599 false,
    .sweepRetired 11000000000]

theorem rotation_accounting :
    ∃ m, Schedule.run step (new 0 3) rotation = some m ∧ m.xmuxClients = [1] ∧ m.closed = [0] ∧
      (∀ id < m.created, m.xmuxClients.count id + m.retired.count id + m.closed.count id = 1) ∧
      ∀ id < m.created, id ∈ m.reset.closed := by
  obtain ⟨m, hrun, hactive, hclosed⟩ : ∃ m, Schedule.run step (new 0 3) rotation = some m ∧
      m.xmuxClients = [1] ∧ m.closed = [0] := ⟨_, rfl, rfl, rfl⟩
  obtain ⟨hplaces, -, -, hreset⟩ := pool_accounting hrun
  exact ⟨m, hrun, hactive, hclosed, hplaces, hreset⟩

end XmuxManager

end SingBox
