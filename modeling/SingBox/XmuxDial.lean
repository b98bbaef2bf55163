/-
**How dials count the use of xmux clients** (`transport/v2rayxhttp/client.go`).

`DialContext` takes a client for the upload and one for the download, raises their `OpenUsage`, and
opens the streams of its mode.  Closing the connection lowers the counters again and sweeps the
pools.  A counter that is never lowered keeps a client alive for ever.

The outcome of the wait for a slot, the clock and the draws of the two requests to the pool, and the
outcome of the streams are inputs of a dial.

* `XHTTPClient.balanced_iff` — when a dial keeps the counters right;
* `DialRun.usage_eq_open` — under that condition every counter is the number of open
  connections that hold the client, along every run;
* `DialRun.balanced_reaped` — so a retired client without connections is idle and closed by a sweep.
-/

import SingBox.GoString
import SingBox.XmuxPool

namespace SingBox

open XmuxManager List

/-! ### Pools -/

namespace XmuxManager

/-- Only clients that are closed have a planned close. -/
def Planned (m : XmuxManager) : Prop :=
  ∀ id, (m.client id).closePlanned = true → id ∈ m.closed

theorem lt_created_of_mem {m : XmuxManager} {toClose : List ℕ} (hm : m.AccountedWith toClose)
    {id : ℕ} (hid : id ∈ m.xmuxClients) : id < m.created := by
  have h := hm id
  have hpos := List.count_pos_iff.2 hid
  rw [places] at h
  by_contra hlt
  rw [if_neg hlt] at h
  omega

variable (m : XmuxManager) (now : ℤ) (draw : XmuxDraw) (id : ℕ)

theorem candidates_subset : m.candidates ⊆ m.xmuxClients := by
  rw [candidates]
  split
  · exact filter_subset_self _
  · exact List.Subset.refl _

@[simp] theorem created_modify (f : XmuxClient → XmuxClient) :
    (m.modify id f).created = m.created := List.length_modify ..

theorem chooseClient_lt {m : XmuxManager} {toClose : List ℕ} (hm : m.AccountedWith toClose) :
    (m.chooseClient now draw).1 < (m.chooseClient now draw).2.created := by
  rcases m.chooseClient_cases now draw with hnew | ⟨id, hid, f, -, hpicked⟩
  · rw [hnew]
    simp [newXmuxClient, created]
  · rw [hpicked, created_modify]
    exact lt_created_of_mem hm (m.candidates_subset hid)

theorem created_le_chooseClient : m.created ≤ (m.chooseClient now draw).2.created := by
  rcases m.chooseClient_cases now draw with hnew | ⟨id, -, f, -, hpicked⟩
  · rw [hnew]
    simp [newXmuxClient, created]
  · rw [hpicked, created_modify]

theorem openUsage_of_use {c c' : XmuxClient} (h : c'.use = c.use) : c'.openUsage = c.openUsage :=
  congrArg Prod.fst h

theorem openUsage_of_held {c c' : XmuxClient} (h : c'.held = c.held) :
    c'.openUsage = c.openUsage := congrArg Prod.fst h

theorem held_newXmuxClient :
    ((m.newXmuxClient draw).2.client id).held = (m.client id).held := by
  rw [client, client, getD_eq_getElem?_getD, getD_eq_getElem?_getD]
  by_cases h : id < m.clients.length
  · simp [newXmuxClient, getElem?_append_left h]
  · have h : m.clients.length ≤ id := Nat.le_of_not_lt h
    simp only [newXmuxClient, getElem?_append_right h, getElem?_eq_none h]
    cases id - m.clients.length <;> rfl

theorem held_chooseClient :
    ((m.chooseClient now draw).2.client id).held = (m.client id).held := by
  rcases m.chooseClient_cases now draw with hnew | ⟨id', -, f, hf, hpicked⟩
  · rw [hnew]
    exact m.held_newXmuxClient draw id
  · rw [hpicked]
    exact m.apply_client_modify XmuxClient.held id' hf id

theorem held_closeXmuxClients (ids : List ℕ) :
    ((m.closeXmuxClients ids).client id).held = (m.client id).held := by
  have h : ∀ m : XmuxManager, ((ids.foldl (fun m id => m.modify id fun c =>
      { c with connClosed := true }) m).client id).held = (m.client id).held := by
    induction ids with
    | nil => exact fun m => rfl
    | cons id' ids ih =>
      intro m
      rw [foldl_cons, ih]
      exact m.apply_client_modify XmuxClient.held id' (by intro c; rfl) id
  exact h m

theorem created_closeXmuxClients (ids : List ℕ) : (m.closeXmuxClients ids).created = m.created := by
  obtain ⟨clients, hclients, hlen⟩ :=
    exists_foldl_modify (fun c => { c with connClosed := true }) ids m
  rw [closeXmuxClients, hclients]
  exact hlen

variable {m}

/-- The clients whose close is planned are closed with the others. -/
theorem Planned.closeXmuxClients (hm : m.Planned) {m' : XmuxManager} {toClose : List ℕ}
    (hclosed : m'.closed = m.closed) (hplanned : ∀ id ∉ toClose,
      (m'.client id).closePlanned = (m.client id).closePlanned) :
    (m'.closeXmuxClients toClose).Planned := by
  intro id hid
  have heq : ((m'.closeXmuxClients toClose).client id).closePlanned = (m'.client id).closePlanned :=
    congrArg Prod.snd (m'.held_closeXmuxClients id toClose)
  refine List.mem_append.2 (or_iff_not_imp_right.2 fun hnot => ?_)
  rw [hclosed]
  exact hm id (by rw [← hplanned id hnot, ← heq, hid])

theorem closed_chooseClient : (m.chooseClient now draw).2.closed = m.closed := by
  rcases m.chooseClient_cases now draw with h | ⟨id, -, f, -, h⟩ <;> rw [h] <;> rfl

theorem Planned.getXmuxClient (hm : m.Planned) : (m.getXmuxClient now draw).2.Planned := by
  obtain ⟨m', hmoves, -, hchosen⟩ := m.exists_moves_client now draw
  rw [XmuxManager.getXmuxClient, hchosen]
  refine hm.closeXmuxClients ((closed_chooseClient now draw).trans hmoves.closed) fun id hid => ?_
  exact (congrArg Prod.snd (m'.held_chooseClient now draw id)).trans (hmoves.planned id hid)

theorem Planned.sweepRetired (hm : m.Planned) : (m.sweepRetired now).Planned :=
  hm.closeXmuxClients (m.moves_sweepRetiredLocked now).closed
    (m.moves_sweepRetiredLocked now).planned

theorem Planned.modify {f : XmuxClient → XmuxClient}
    (hf : ∀ c, (f c).closePlanned = c.closePlanned) (hm : m.Planned) : (m.modify id f).Planned :=
  fun id' h => hm id' ((m.apply_client_modify XmuxClient.closePlanned id hf id').symm.trans h)

end XmuxManager

/-- A pool whose clients are accounted for, and whose planned closes have been done. -/
def XmuxPool : Type := {m : XmuxManager // m.Accounted ∧ m.Planned}

namespace XmuxPool

/-- The use of a client of the pool. -/
def openUsage (pool : XmuxPool) (id : ℕ) : Int32 := (pool.val.client id).openUsage

/-- `GetXmuxClient`. -/
def getXmuxClient (pool : XmuxPool) (now : ℤ) (draw : XmuxDraw) : ℕ × XmuxPool :=
  ((pool.val.getXmuxClient now draw).1, ⟨(pool.val.getXmuxClient now draw).2,
    accounted_step pool.val (.getXmuxClient now draw) _ rfl pool.property.1,
    pool.property.2.getXmuxClient now draw⟩)

/-- `SweepRetired`. -/
def sweepRetired (pool : XmuxPool) (now : ℤ) : XmuxPool :=
  ⟨pool.val.sweepRetired now,
    accounted_step pool.val (.sweepRetired now) _ rfl pool.property.1,
    pool.property.2.sweepRetired now⟩

/-- One client is changed. -/
def modify (pool : XmuxPool) (id : ℕ) (f : XmuxClient → XmuxClient)
    (hf : ∀ c, (f c).closePlanned = c.closePlanned) : XmuxPool :=
  ⟨pool.val.modify id f, accountedWith_modify id f pool.property.1, pool.property.2.modify id hf⟩

/-- The client exists. -/
def Has (pool : XmuxPool) (id : ℕ) : Prop := id < pool.val.created

variable (pool : XmuxPool) (now : ℤ) (draw : XmuxDraw)

theorem has_getXmuxClient :
    (pool.getXmuxClient now draw).2.Has (pool.getXmuxClient now draw).1 := by
  obtain ⟨m, hmoves, hid, hchosen⟩ := pool.val.exists_moves_client now draw
  change (pool.val.getXmuxClientLocked now draw).1 <
    ((pool.val.getXmuxClientLocked now draw).2.2.closeXmuxClients _).created
  rw [created_closeXmuxClients, hid, hchosen]
  exact chooseClient_lt now draw (hmoves.accountedWith pool.property.1)

variable {pool} {id : ℕ}

theorem Has.getXmuxClient (h : pool.Has id) : (pool.getXmuxClient now draw).2.Has id := by
  obtain ⟨m, hmoves, -, hchosen⟩ := pool.val.exists_moves_client now draw
  change id < ((pool.val.getXmuxClientLocked now draw).2.2.closeXmuxClients _).created
  rw [created_closeXmuxClients, hchosen]
  refine lt_of_lt_of_le ?_ (m.created_le_chooseClient now draw)
  rw [hmoves.created]
  exact h

theorem openUsage_getXmuxClient (id : ℕ) :
    (pool.getXmuxClient now draw).2.openUsage id = pool.openUsage id := by
  obtain ⟨m, hmoves, -, hchosen⟩ := pool.val.exists_moves_client now draw
  change (((pool.val.getXmuxClientLocked now draw).2.2.closeXmuxClients _).client id).openUsage = _
  rw [openUsage_of_held (held_closeXmuxClients ..), hchosen,
    openUsage_of_held (held_chooseClient ..)]
  exact openUsage_of_use (hmoves.sameUse id)

theorem Has.sweepRetired (h : pool.Has id) : (pool.sweepRetired now).Has id := by
  change id < ((pool.val.sweepRetiredLocked now).2.closeXmuxClients _).created
  rw [created_closeXmuxClients, (pool.val.moves_sweepRetiredLocked now).created]
  exact h

theorem openUsage_sweepRetired (id : ℕ) :
    (pool.sweepRetired now).openUsage id = pool.openUsage id := by
  change (((pool.val.sweepRetiredLocked now).2.closeXmuxClients _).client id).openUsage = _
  rw [openUsage_of_held (held_closeXmuxClients ..)]
  exact openUsage_of_use ((pool.val.moves_sweepRetiredLocked now).sameUse id)

theorem Has.modify (h : pool.Has id) (id' : ℕ) {f : XmuxClient → XmuxClient}
    (hf : ∀ c, (f c).closePlanned = c.closePlanned) : (pool.modify id' f hf).Has id := by
  rw [Has, XmuxPool.modify, created_modify]
  exact h

theorem openUsage_modify_add (h : pool.Has id) (delta : Int32) (id' : ℕ) :
    (pool.modify id (fun x => { x with openUsage := x.openUsage + delta })
      fun _ => rfl).openUsage id' =
      pool.openUsage id' + if id' = id then delta else 0 := by
  rw [openUsage, modify, client_modify _ _ h]
  by_cases hid : id' = id
  · simp [openUsage, hid]
  · simp [openUsage, hid]

/-- **A retired client that nothing uses** is idle after the grace period, and a sweep closes it. -/
theorem idle_of_retired {now : ℤ} (hretired : id ∈ pool.val.retired)
    (hquiet : (pool.val.client id).Quiet now) :
    (pool.val.client id).idleLocked now = true ∧ id ∈ (pool.sweepRetired now).val.closed := by
  obtain ⟨husage, hposts, hgrace⟩ := hquiet
  have hplanned : (pool.val.client id).closePlanned = false := by
    -- A client whose close is planned is closed, and so not retired.
    by_contra h
    have hclosed := List.count_pos_iff.2 (pool.property.2 id (Bool.eq_true_of_not_eq_false h))
    have hcount := List.count_pos_iff.2 hretired
    have hplaces := pool.property.1 id
    rw [places, count_nil] at hplaces
    split at hplaces <;> omega
  have hidle : (pool.val.client id).idleLocked now = true := by
    simp [XmuxClient.idleLocked, hplanned, husage, hposts, hgrace]
  exact ⟨hidle, List.mem_append_right _ (mem_sweepLoop now [] _ [] hretired _ hidle)⟩

end XmuxPool

/-! ### The transport -/

/-- `badoption.Range`. -/
structure Int32Range where
  (lower upper : Int32)

/-- `buf.Size` of the vendored package. -/
def xrayBufSize : Int32 := 8192

/-- `GetNormalizedScMaxEachPostBytes`. -/
def getNormalizedScMaxEachPostBytes : Option Int32Range → Int32Range
  | none => ⟨1000000, 1000000⟩
  | some range => if range.upper = 0 then ⟨1000000, 1000000⟩ else range

/-- The modes of `DialContext`.  Every mode that is neither stream-one nor stream-up is dialled as
packet-up. -/
inductive DialMode where
  | streamOne
  | streamUp
  | packetUp
  deriving DecidableEq

/-- A client of one of the two pools. -/
inductive XmuxRef where
  | upload (id : ℕ)
  | download (id : ℕ)
  deriving DecidableEq

/-- `Client`: the part of it that `DialContext` reads.  Without download settings there is no second
pool. -/
structure XHTTPClient where
  mode : DialMode
  scMaxEachPostBytes : Option Int32Range := none
  xmuxManager : XmuxPool
  xmuxManager2 : Option XmuxPool := none

/-- `splitConn`: the clients that the callback of its `Close` lowers, and the calls so far. -/
structure SplitConn where
  (xmuxClient xmuxClient2 : XmuxRef)
  closed : Int32 := 0

/-- What a dial finds: the outcome of the wait for a slot, the inputs of the two requests to the
pools, and the outcome of the first stream and of the upload stream of stream-up. -/
structure DialInput where
  slot : Option GoError := none
  now : ℤ := 0
  draw : XmuxDraw := {}
  now2 : ℤ := 0
  draw2 : XmuxDraw := {}
  (stream uploadStream : Option GoError := none)

namespace XHTTPClient

/-- `OpenUsage` of a client. -/
def usage (c : XHTTPClient) : XmuxRef → Int32
  | .upload id => c.xmuxManager.openUsage id
  | .download id =>
    match c.xmuxManager2 with
    | none => 0
    | some pool => pool.openUsage id

/-- The pool of a client, and its number there. -/
def pool? (c : XHTTPClient) : XmuxRef → Option (XmuxPool × ℕ)
  | .upload id => some (c.xmuxManager, id)
  | .download id => c.xmuxManager2.map fun pool => (pool, id)

theorem usage_of_pool? {c : XHTTPClient} {ref : XmuxRef} {pool : XmuxPool} {id : ℕ}
    (h : c.pool? ref = some (pool, id)) : c.usage ref = pool.openUsage id := by
  cases ref with
  | upload id' =>
    cases h
    rfl
  | download id' =>
    obtain ⟨pool', hpool, heq⟩ := Option.map_eq_some_iff.1 h
    cases heq
    simp only [usage, hpool]

/-- One client is changed. -/
def modify (c : XHTTPClient) (ref : XmuxRef) (f : XmuxClient → XmuxClient)
    (hf : ∀ c, (f c).closePlanned = c.closePlanned) : XHTTPClient :=
  match ref with
  | .upload id => { c with xmuxManager := c.xmuxManager.modify id f hf }
  | .download id => { c with xmuxManager2 := c.xmuxManager2.map fun pool => pool.modify id f hf }

/-- `getHTTPClient`. -/
def getHTTPClient (c : XHTTPClient) (now : ℤ) (draw : XmuxDraw) : XmuxRef × XHTTPClient :=
  let result := c.xmuxManager.getXmuxClient now draw
  (.upload result.1, { c with xmuxManager := result.2 })

/-- `getHTTPClient2`, which is `getHTTPClient` without download settings. -/
def getHTTPClient2 (c : XHTTPClient) (now : ℤ) (draw : XmuxDraw) : XmuxRef × XHTTPClient :=
  match c.xmuxManager2 with
  | none => c.getHTTPClient now draw
  | some pool =>
    let result := pool.getXmuxClient now draw
    (.download result.1, { c with xmuxManager2 := some result.2 })

/-- `OpenUsage` of both clients is changed, and of a client that is both only once. -/
def addUsage (c : XHTTPClient) (delta : Int32) (ref ref2 : XmuxRef) : XHTTPClient :=
  let add (x : XmuxClient) : XmuxClient := { x with openUsage := x.openUsage + delta }
  let c := c.modify ref add fun _ => rfl
  if ref2 = ref then c else c.modify ref2 add fun _ => rfl

/-- `LeftRequests` of a client is lowered. -/
def takeRequest (c : XHTTPClient) (ref : XmuxRef) : XHTTPClient :=
  c.modify ref (fun x => { x with leftRequests := x.leftRequests - 1 }) fun _ => rfl

/-- `DialContext`, up to the start of the upload of packet-up. -/
def dialContext (c : XHTTPClient) (input : DialInput) : Except GoError SplitConn × XHTTPClient :=
  match input.slot with
  | some err => (.error err, c)
  | none =>
    let (ref, c) := c.getHTTPClient input.now input.draw
    let (ref2, c) := c.getHTTPClient2 input.now2 input.draw2
    let c := c.addUsage 1 ref ref2
    let conn : SplitConn := { xmuxClient := ref, xmuxClient2 := ref2 }
    if c.mode = .streamOne then
      let c := c.takeRequest ref
      match input.stream with
      | some err => (.error err, c)
      | none => (.ok conn, c)
    else
      let c := c.takeRequest ref2
      match input.stream with
      | some err => (.error err, c)
      | none =>
        if c.mode = .streamUp then
          let c := c.takeRequest ref
          match input.uploadStream with
          | some err => (.error err, c)
          | none => (.ok conn, c)
        else if (getNormalizedScMaxEachPostBytes c.scMaxEachPostBytes).lower ≤ xrayBufSize then
          (.error (.new (GoString.ofString
            "`scMaxEachPostBytes` should be bigger than 8192")), c)
        else (.ok conn, c)

/-- `Close` of a connection, with the times at which the pools are swept. -/
def close (times : ℤ × ℤ) : SplitConn × XHTTPClient → SplitConn × XHTTPClient
  | (conn, c) =>
    let conn := { conn with closed := conn.closed + 1 }
    if 1 < conn.closed then (conn, c)
    else
      let c := c.addUsage (-1) conn.xmuxClient conn.xmuxClient2
      let c := { c with xmuxManager := c.xmuxManager.sweepRetired times.1 }
      (conn, { c with xmuxManager2 := c.xmuxManager2.map fun pool => pool.sweepRetired times.2 })

/-- Several calls of `Close`. -/
def closeAll (times : List (ℤ × ℤ)) (s : SplitConn × XHTTPClient) : SplitConn × XHTTPClient :=
  times.foldl (fun s t => close t s) s

end XHTTPClient

/-- The connection counts as a use of the client. -/
def SplitConn.Holds (conn : SplitConn) (ref : XmuxRef) : Prop :=
  ref = conn.xmuxClient ∨ ref = conn.xmuxClient2

instance (conn : SplitConn) (ref : XmuxRef) : Decidable (conn.Holds ref) :=
  inferInstanceAs (Decidable (_ ∨ _))

/-! ### What the steps do to the counters -/

namespace XHTTPClient

/-- The client exists. -/
def Has (c : XHTTPClient) : XmuxRef → Prop
  | .upload id => c.xmuxManager.Has id
  | .download id => ∃ pool, c.xmuxManager2 = some pool ∧ pool.Has id

/-- The counters and the settings are the same, and no client is lost. -/
structure SameUsage (c c' : XHTTPClient) : Prop where
  usage : ∀ ref, c'.usage ref = c.usage ref
  has : ∀ ref, c.Has ref → c'.Has ref
  mode : c'.mode = c.mode
  limit : c'.scMaxEachPostBytes = c.scMaxEachPostBytes

theorem SameUsage.trans {c c' c'' : XHTTPClient} (h : SameUsage c c') (h' : SameUsage c' c'') :
    SameUsage c c'' where
  usage ref := (h'.usage ref).trans (h.usage ref)
  has ref hc := h'.has ref (h.has ref hc)
  mode := h'.mode.trans h.mode
  limit := h'.limit.trans h.limit

variable {c : XHTTPClient}

theorem Has.modify {ref : XmuxRef} (h : c.Has ref) (ref' : XmuxRef) {f : XmuxClient → XmuxClient}
    (hf : ∀ c, (f c).closePlanned = c.closePlanned) : (c.modify ref' f hf).Has ref := by
  cases ref' with
  | upload id =>
    cases ref with
    | upload id' => exact XmuxPool.Has.modify h id hf
    | download id' => exact h
  | download id =>
    cases ref with
    | upload id' => exact h
    | download id' =>
      obtain ⟨pool, hpool, hhas⟩ := h
      exact ⟨pool.modify id f hf, by simp [XHTTPClient.modify, hpool], hhas.modify id hf⟩

section

variable (c) (now : ℤ) (draw : XmuxDraw)

theorem sameUsage_getHTTPClient :
    SameUsage c (c.getHTTPClient now draw).2 ∧
      (c.getHTTPClient now draw).2.Has (c.getHTTPClient now draw).1 := by
  refine ⟨⟨fun ref => ?_, fun ref h => ?_, rfl, rfl⟩, c.xmuxManager.has_getXmuxClient now draw⟩
  · cases ref with
    | upload id => exact c.xmuxManager.openUsage_getXmuxClient now draw id
    | download id => rfl
  · cases ref with
    | upload id => exact XmuxPool.Has.getXmuxClient now draw h
    | download id => exact h

theorem sameUsage_getHTTPClient2 :
    SameUsage c (c.getHTTPClient2 now draw).2 ∧
      (c.getHTTPClient2 now draw).2.Has (c.getHTTPClient2 now draw).1 := by
  rw [getHTTPClient2]
  split
  · exact c.sameUsage_getHTTPClient now draw
  · rename_i pool hpool
    refine ⟨⟨fun ref => ?_, fun ref h => ?_, rfl, rfl⟩, ⟨_, rfl, pool.has_getXmuxClient now draw⟩⟩
    · cases ref with
      | upload id => rfl
      | download id =>
        simp only [usage, hpool]
        exact pool.openUsage_getXmuxClient now draw id
    · cases ref with
      | upload id => exact h
      | download id =>
        obtain ⟨pool', hpool', hhas⟩ := h
        obtain rfl : pool = pool' := Option.some.inj (hpool.symm.trans hpool')
        exact ⟨_, rfl, hhas.getXmuxClient now draw⟩

theorem sameUsage_modify (ref : XmuxRef) {f : XmuxClient → XmuxClient}
    (hf : ∀ c, (f c).closePlanned = c.closePlanned) (husage : ∀ c, (f c).openUsage = c.openUsage) :
    SameUsage c (c.modify ref f hf) := by
  refine ⟨fun ref' => ?_, fun ref' h => h.modify ref hf, ?_, ?_⟩
  · cases ref with
    | upload id =>
      cases ref' with
      | upload id' => exact c.xmuxManager.val.apply_client_modify _ id husage id'
      | download id' => rfl
    | download id =>
      cases ref' with
      | upload id' => rfl
      | download id' =>
        cases hpool : c.xmuxManager2 with
        | none => simp [usage, modify, hpool]
        | some pool =>
          simp only [usage, modify, hpool, Option.map_some]
          exact pool.val.apply_client_modify _ id husage id'
  · cases ref <;> rfl
  · cases ref <;> rfl

theorem sameUsage_takeRequest (ref : XmuxRef) : SameUsage c (c.takeRequest ref) :=
  c.sameUsage_modify ref _ fun _ => rfl

/-- Both pools are swept. -/
def sweep (c : XHTTPClient) (times : ℤ × ℤ) : XHTTPClient :=
  { c with
    xmuxManager := c.xmuxManager.sweepRetired times.1
    xmuxManager2 := c.xmuxManager2.map fun pool => pool.sweepRetired times.2 }

theorem sameUsage_sweep (times : ℤ × ℤ) : SameUsage c (c.sweep times) := by
  refine ⟨fun ref => ?_, fun ref h => ?_, rfl, rfl⟩
  · cases ref with
    | upload id => exact c.xmuxManager.openUsage_sweepRetired times.1 id
    | download id =>
      cases hpool : c.xmuxManager2 with
      | none => simp [usage, sweep, hpool]
      | some pool =>
        simp only [usage, sweep, hpool, Option.map_some]
        exact pool.openUsage_sweepRetired times.2 id
  · cases ref with
    | upload id => exact XmuxPool.Has.sweepRetired times.1 h
    | download id =>
      obtain ⟨pool, hpool, hhas⟩ := h
      exact ⟨_, by rw [sweep, hpool, Option.map_some], hhas.sweepRetired times.2⟩

end

theorem usage_modify_add {ref : XmuxRef} (h : c.Has ref) (delta : Int32) (ref' : XmuxRef) :
    (c.modify ref (fun x => { x with openUsage := x.openUsage + delta }) fun _ => rfl).usage ref' =
      c.usage ref' + if ref' = ref then delta else 0 := by
  cases ref with
  | upload id =>
    cases ref' with
    | upload id' =>
      simp only [usage, modify, XmuxPool.openUsage_modify_add h, XmuxRef.upload.injEq]
    | download id' => simp [usage, modify]
  | download id =>
    obtain ⟨pool, hpool, hhas⟩ := h
    cases ref' with
    | upload id' => simp [usage, modify]
    | download id' =>
      simp only [usage, modify, hpool, Option.map_some, XmuxPool.openUsage_modify_add hhas,
        XmuxRef.download.injEq]

/-- `OpenUsage` of both clients of a connection is changed, by the same amount. -/
theorem usage_addUsage {ref ref2 : XmuxRef} (h : c.Has ref) (h2 : c.Has ref2)
    (delta : Int32) (ref' : XmuxRef) :
    (c.addUsage delta ref ref2).usage ref' =
      c.usage ref' + if ref' = ref ∨ ref' = ref2 then delta else 0 := by
  rw [addUsage]
  split
  · rename_i hsame
    rw [usage_modify_add h, hsame]
    simp only [or_self]
  · rename_i hne
    rw [usage_modify_add (h2.modify ref _), usage_modify_add h]
    by_cases href : ref' = ref
    · have hne' : ref' ≠ ref2 := fun h => hne (h.symm.trans href)
      rw [if_pos href, if_neg hne', if_pos (.inl href), Int32.add_zero]
    · simp [href]

theorem Has.addUsage {ref' : XmuxRef} (h : c.Has ref') (delta : Int32)
    (ref ref2 : XmuxRef) : (c.addUsage delta ref ref2).Has ref' := by
  rw [XHTTPClient.addUsage]
  split
  · exact h.modify ref _
  · exact (h.modify ref _).modify ref2 _

/-! ### A dial and its closes -/

/-- No stream that the dial opens fails, and packet-up may post more than a buffer. -/
def StreamsOpen (c : XHTTPClient) (input : DialInput) : Prop :=
  input.stream = none ∧ (c.mode = .streamUp → input.uploadStream = none) ∧
    (c.mode = .packetUp →
      xrayBufSize < (getNormalizedScMaxEachPostBytes c.scMaxEachPostBytes).lower)

/-- The connection counts as a use of its two clients, which exist. -/
structure Counts (c c' : XHTTPClient) (conn : SplitConn) : Prop where
  held : ∀ ref, conn.Holds ref → c'.Has ref
  has : ∀ ref, c.Has ref → c'.Has ref
  usage : ∀ ref, c'.usage ref = c.usage ref + if conn.Holds ref then 1 else 0

variable {conn : SplitConn}

theorem Counts.sameUsage {c c' c'' : XHTTPClient} (h : c.Counts c' conn)
    (hsame : SameUsage c' c'') : c.Counts c'' conn where
  held ref href := hsame.has ref (h.held ref href)
  has ref hc := hsame.has ref (h.has ref hc)
  usage ref := (hsame.usage ref).trans (h.usage ref)

/-- **What a dial does to the counters.**  They are raised whether it succeeds or not. -/
theorem dialContext_spec (c : XHTTPClient) {input : DialInput} (hslot : input.slot = none) :
    ∃ conn : SplitConn, conn.closed = 0 ∧ c.Counts (c.dialContext input).2 conn ∧
      (c.StreamsOpen input ∧ (c.dialContext input).1 = .ok conn ∨
        ¬c.StreamsOpen input ∧ ∃ err, (c.dialContext input).1 = .error err) := by
  obtain ⟨hsame₁, hhas₁⟩ := c.sameUsage_getHTTPClient input.now input.draw
  rcases h₁ : c.getHTTPClient input.now input.draw with ⟨ref, c₁⟩
  rw [h₁] at hsame₁ hhas₁
  obtain ⟨hsame₂, hhas₂⟩ := c₁.sameUsage_getHTTPClient2 input.now2 input.draw2
  rcases h₂ : c₁.getHTTPClient2 input.now2 input.draw2 with ⟨ref2, c₂⟩
  rw [h₂] at hsame₂ hhas₂
  have hsame := hsame₁.trans hsame₂
  have hhas : c₂.Has ref := hsame₂.has ref hhas₁
  have hcounts : c.Counts (c₂.addUsage 1 ref ref2) ⟨ref, ref2, 0⟩ := by
    refine ⟨?_, fun ref' h => Has.addUsage (hsame.has ref' h) 1 _ _, fun ref' => ?_⟩
    · rintro ref' (rfl | rfl)
      · exact hhas.addUsage 1 _ _
      · exact Has.addUsage hhas₂ 1 _ _
    · rw [usage_addUsage hhas hhas₂, hsame.usage]
      rfl
  obtain ⟨hmode, hlimit⟩ : (c₂.addUsage 1 ref ref2).mode = c.mode ∧
      (c₂.addUsage 1 ref ref2).scMaxEachPostBytes = c.scMaxEachPostBytes := by
    rw [← hsame.mode, ← hsame.limit, addUsage]
    split <;> cases ref <;> cases ref2 <;> exact ⟨rfl, rfl⟩
  refine ⟨⟨ref, ref2, 0⟩, rfl, ?_⟩
  rw [dialContext, hslot]
  dsimp only
  rw [h₁]
  dsimp only
  rw [h₂]
  dsimp only
  generalize c₂.addUsage 1 ref ref2 = c₃ at hcounts hmode hlimit
  -- The streams are opened; none of this touches the counters.
  have htake := fun ref => c₃.sameUsage_takeRequest ref
  rw [hmode]
  cases hm : c.mode with
  | streamOne =>
    rw [if_pos rfl]
    refine ⟨?_, ?_⟩
    · cases input.stream <;> exact hcounts.sameUsage (htake ref)
    · cases hstream : input.stream with
      | some err => exact .inr ⟨fun h => by simp [StreamsOpen, hstream] at h, err, rfl⟩
      | none => exact .inl ⟨by simp [StreamsOpen, hstream, hm], rfl⟩
  | streamUp =>
    rw [if_neg (by decide), (htake ref2).mode, hmode, hm, if_pos rfl]
    have htake' := (htake ref2).trans ((c₃.takeRequest ref2).sameUsage_takeRequest ref)
    cases hstream : input.stream with
    | some err =>
      exact ⟨hcounts.sameUsage (htake ref2),
        .inr ⟨fun h => by simp [StreamsOpen, hstream] at h, err, rfl⟩⟩
    | none =>
      cases hupload : input.uploadStream with
      | some err =>
        exact ⟨hcounts.sameUsage htake',
          .inr ⟨fun h => by simp [StreamsOpen, hupload, hm] at h, err, rfl⟩⟩
      | none =>
        exact ⟨hcounts.sameUsage htake', .inl ⟨by simp [StreamsOpen, hstream, hupload, hm], rfl⟩⟩
  | packetUp =>
    rw [if_neg (by decide), (htake ref2).mode, hmode, hm, if_neg (by decide), (htake ref2).limit,
      hlimit]
    cases hstream : input.stream with
    | some err =>
      exact ⟨hcounts.sameUsage (htake ref2),
        .inr ⟨fun h => by simp [StreamsOpen, hstream] at h, err, rfl⟩⟩
    | none =>
      dsimp only
      split
      · rename_i hsmall
        refine ⟨hcounts.sameUsage (htake ref2), .inr ⟨fun h => ?_, _, rfl⟩⟩
        exact absurd (h.2.2 hm) (Int32.not_lt.2 hsmall)
      · rename_i hlarge
        refine ⟨hcounts.sameUsage (htake ref2), .inl ⟨⟨hstream, by simp [hm], ?_⟩, rfl⟩⟩
        exact fun _ => Int32.not_le.1 hlarge

theorem close_of_le (conn : SplitConn) (hclosed : conn.closed + 1 ≤ 1)
    (hhas : ∀ ref, conn.Holds ref → c.Has ref) (times : ℤ × ℤ) :
    (close times (conn, c)).1 = { conn with closed := conn.closed + 1 } ∧
      (∀ ref, c.Has ref → (close times (conn, c)).2.Has ref) ∧
      ∀ ref, (close times (conn, c)).2.usage ref =
        c.usage ref - if conn.Holds ref then 1 else 0 := by
  have hsweep := (c.addUsage (-1) conn.xmuxClient conn.xmuxClient2).sameUsage_sweep times
  rw [close]
  dsimp only
  rw [if_neg (Int32.not_lt.2 hclosed)]
  refine ⟨rfl, fun ref h => hsweep.has ref (h.addUsage (-1) _ _), fun ref => ?_⟩
  refine (hsweep.usage ref).trans ?_
  rw [usage_addUsage (hhas _ (.inl rfl)) (hhas _ (.inr rfl))]
  change c.usage ref + (if conn.Holds ref then -1 else 0) = _
  split
  · exact (Int32.sub_eq_add_neg _ _).symm
  · simp

theorem toInt_add_one {a : Int32} (h : a.toInt < 2 ^ 31 - 1) : (a + 1).toInt = a.toInt + 1 := by
  have hlow := a.le_toInt
  rw [Int32.toInt_add, Int.bmod_eq_of_le]
  all_goals simp only [Int32.reduceToInt]
  all_goals omega

/-- **What a call of `Close` does**, unless its counter wraps around: the first one lowers the
counters, the later ones only count. -/
theorem close_spec (conn : SplitConn) (hlow : 0 ≤ conn.closed.toInt)
    (hhigh : conn.closed.toInt < 2 ^ 31 - 1) (hhas : ∀ ref, conn.Holds ref → c.Has ref)
    (times : ℤ × ℤ) :
    (close times (conn, c)).1 = { conn with closed := conn.closed + 1 } ∧
      (∀ ref, c.Has ref → (close times (conn, c)).2.Has ref) ∧
      ∀ ref, (close times (conn, c)).2.usage ref =
        c.usage ref - if conn.closed = 0 ∧ conn.Holds ref then 1 else 0 := by
  by_cases hzero : conn.closed = 0
  · simpa only [hzero, true_and] using close_of_le conn (by rw [hzero]; decide) hhas times
  · have hlt : 1 < conn.closed + 1 := by
      have : conn.closed.toInt ≠ 0 := fun h => hzero (Int32.toInt_inj.1 h)
      rw [Int32.lt_iff_toInt_lt, toInt_add_one hhigh]
      simp only [Int32.reduceToInt]
      omega
    rw [close]
    dsimp only
    rw [if_pos hlt]
    exact ⟨rfl, fun _ h => h, by simp [hzero]⟩

variable {times : List (ℤ × ℤ)}

theorem closeAll_concat (t : ℤ × ℤ) (s : SplitConn × XHTTPClient) :
    closeAll (times ++ [t]) s = close t (closeAll times s) := by
  simp [closeAll]

/-- **Fewer than `2 ^ 31` calls of `Close`** lower the counters once. -/
theorem closeAll_spec (hclosed : conn.closed = 0) (hhas : ∀ ref, conn.Holds ref → c.Has ref)
    (hlen : times.length < 2 ^ 31) :
    ∃ closed : Int32, closed.toInt = times.length ∧
      (closeAll times (conn, c)).1 = { conn with closed := closed } ∧
      (∀ ref, c.Has ref → (closeAll times (conn, c)).2.Has ref) ∧
      ∀ ref, (closeAll times (conn, c)).2.usage ref =
        c.usage ref - if times ≠ [] ∧ conn.Holds ref then 1 else 0 := by
  induction times using List.reverseRecOn with
  | nil => exact ⟨0, rfl, by rw [← hclosed]; rfl, fun _ h => h, fun ref => by simp [closeAll]⟩
  | append_singleton times t ih =>
    rw [length_append, length_singleton] at hlen
    obtain ⟨closed, hcount, hconn, hkept, husage⟩ := ih (by omega)
    have hhigh : closed.toInt < 2 ^ 31 - 1 := by omega
    obtain ⟨hconn', hkept', husage'⟩ := close_spec { conn with closed := closed } (by simp [hcount])
      hhigh (fun ref href => hkept ref (hhas ref href)) t
    have hzero : closed = 0 ↔ times = [] := by
      rw [← Int32.toInt_inj, hcount, ← length_eq_zero_iff]
      exact Int.natCast_eq_zero
    rw [closeAll_concat, ← Prod.mk.eta (p := closeAll times (conn, c)), hconn]
    refine ⟨closed + 1, by rw [toInt_add_one hhigh, hcount, length_append]; rfl, hconn',
      fun ref h => hkept' ref (hkept ref h), fun ref => (husage' ref).trans ?_⟩
    change _ - (if closed = 0 ∧ conn.Holds ref then 1 else 0) = _
    rw [husage]
    by_cases hfirst : times = [] <;> simp [hzero, hfirst]

/-- The call of `Close` with number `2 ^ 31` finds a negative counter and lowers the counters
again. -/
theorem usage_closeAll_wrap (hclosed : conn.closed = 0) (hhas : ∀ ref, conn.Holds ref → c.Has ref)
    (hlen : times.length + 1 = 2 ^ 31) (t : ℤ × ℤ) :
    (closeAll (times ++ [t]) (conn, c)).2.usage conn.xmuxClient =
      (closeAll times (conn, c)).2.usage conn.xmuxClient - 1 := by
  obtain ⟨closed, hcount, hconn, hkept, -⟩ := closeAll_spec hclosed hhas
    (show times.length < 2 ^ 31 by omega)
  have hwrap : closed + 1 ≤ 1 := by
    have hsum : closed.toInt + 1 = 2 ^ 31 := by omega
    rw [Int32.le_iff_toInt_le, Int32.toInt_add, show (1 : Int32).toInt = 1 from rfl, hsum]
    decide
  obtain ⟨-, -, husage⟩ := close_of_le { conn with closed := closed }
    (c := (closeAll times (conn, c)).2) hwrap (fun ref href => hkept ref (hhas ref href)) t
  have hholds : ({ conn with closed := closed } : SplitConn).Holds conn.xmuxClient := .inl rfl
  rw [closeAll_concat, ← Prod.mk.eta (p := closeAll times (conn, c)), hconn, husage, if_pos hholds]

/-- **The counters are right**: an error leaves every `OpenUsage` as it was, a connection raises
that of its clients by one, and after one or more calls of `Close` they are as before the dial. -/
def Balanced (c : XHTTPClient) (input : DialInput) (times : List (ℤ × ℤ)) : Prop :=
  match c.dialContext input with
  | (.error _, c') => ∀ ref, c'.usage ref = c.usage ref
  | (.ok conn, c') =>
    (∀ ref, c'.usage ref = c.usage ref + if conn.Holds ref then 1 else 0) ∧
      ∀ times', times' <+: times → times' ≠ [] → ∀ ref,
        (closeAll times' (conn, c')).2.usage ref = c.usage ref

/-- **A dial keeps the counters right** if and only if it fails before it takes a client, or none of
its streams fails, a post may be larger than a buffer, and `Close` is called fewer than `2 ^ 31`
times. -/
theorem balanced_iff (c : XHTTPClient) (input : DialInput) (times : List (ℤ × ℤ)) :
    c.Balanced input times ↔ input.slot ≠ none ∨ c.StreamsOpen input ∧ times.length < 2 ^ 31 := by
  cases hslot : input.slot with
  | some err => simp [Balanced, dialContext, hslot]
  | none =>
    obtain ⟨conn, hclosed, ⟨hhas, -, husage⟩, hresult⟩ := c.dialContext_spec hslot
    rcases hdial : c.dialContext input with ⟨result, c'⟩
    rw [hdial] at hhas husage hresult
    rw [Balanced, hdial]
    simp only [ne_eq, not_true_eq_false, false_or]
    rcases hresult with ⟨hopen, rfl⟩ | ⟨hopen, err, rfl⟩
    · simp only [hopen, true_and]
      constructor
      · rintro ⟨-, hclose⟩
        by_contra hlength
        obtain ⟨n, hn⟩ : ∃ n, n + 1 = 2 ^ 31 := ⟨2147483647, by norm_num⟩
        have ht : n < times.length := by omega
        have hinit : (times.take n).length = n := length_take_of_le ht.le
        have htake : times.take (n + 1) = times.take n ++ [times[n]] := (take_concat_get' ..).symm
        have hne : times.take n ≠ [] := by
          rw [← length_pos_iff, hinit]
          omega
        have hbefore := hclose _ (List.take_prefix n times) hne conn.xmuxClient
        have hne' : times.take (n + 1) ≠ [] := by
          rw [htake]
          exact append_ne_nil_of_left_ne_nil hne _
        have hafter := hclose _ (List.take_prefix (n + 1) times) hne' conn.xmuxClient
        rw [htake, usage_closeAll_wrap hclosed hhas (by rw [hinit, hn]), hbefore] at hafter
        grind
      · intro hlength
        refine ⟨husage, fun times' hinitial hne ref => ?_⟩
        obtain ⟨-, -, -, -, h⟩ := closeAll_spec hclosed hhas (hinitial.length_le.trans_lt hlength)
        rw [h, husage]
        by_cases href : conn.Holds ref
        · simp [hne, href]
        · simp [href]
    · simp only [hopen, false_and, iff_false]
      intro h
      have hraised := husage conn.xmuxClient
      rw [h, if_pos (.inl rfl)] at hraised
      grind

/-- An empty pool. -/
def emptyPool : XmuxPool :=
  ⟨.new 0 3, fun id => by simp [places, new, created], fun id h => by simp [client, new] at h⟩

/-- A transport in packet-up mode whose posts may be no larger than a buffer. -/
def smallPosts : XHTTPClient :=
  { mode := .packetUp, scMaxEachPostBytes := some ⟨8192, 8192⟩, xmuxManager := emptyPool }

theorem smallPosts_leaks :
    ∃ err c', smallPosts.dialContext {} = (.error err, c') ∧
      c'.usage (.upload 0) = 1 ∧ smallPosts.usage (.upload 0) = 0 :=
  ⟨_, _, rfl, rfl, rfl⟩

end XHTTPClient

/-! ### Runs of dials and closes -/

/-- The transport and the connections that it has returned. -/
structure DialRun where
  client : XHTTPClient
  conns : List SplitConn := []

/-- A dial, or `Close` of the connection with a number.  The upload of packet-up counts its posts on
a client, and asks for another client when that one is used up. -/
inductive DialEvent where
  | dial (input : DialInput)
  | close (i : ℕ) (times : ℤ × ℤ)
  | post (ref : XmuxRef) (inflightPosts leftRequests : Int32)
  | rotate (now : ℤ) (draw : XmuxDraw)

namespace DialRun

/-- A step of a run. -/
def step (s : DialRun) : DialEvent → Option DialRun
  | .dial input =>
    match s.client.dialContext input with
    | (.error _, c) => some { s with client := c }
    | (.ok conn, c) => some { client := c, conns := s.conns ++ [conn] }
  | .close i times =>
    match s.conns[i]? with
    | none => none
    | some conn =>
      let closed := XHTTPClient.close times (conn, s.client)
      some { client := closed.2, conns := s.conns.set i closed.1 }
  | .post ref inflightPosts leftRequests =>
    some { s with client := s.client.modify ref (fun x =>
      { x with inflightPosts := inflightPosts, leftRequests := leftRequests }) fun _ => rfl }
  | .rotate now draw => some { s with client := (s.client.getHTTPClient now draw).2 }

/-- The condition under which a step keeps the counters right. -/
def KeepsBalance (s : DialRun) : DialEvent → Prop
  | .dial input => input.slot ≠ none ∨ s.client.StreamsOpen input
  | .close i _ => ∀ conn, s.conns[i]? = some conn → conn.closed.toInt < 2 ^ 31 - 1
  | .post .. | .rotate .. => True

/-- The number of open connections that hold a client. -/
def openConns (s : DialRun) (ref : XmuxRef) : ℕ :=
  s.conns.countP fun conn => decide (conn.closed = 0) && decide (conn.Holds ref)

/-- Every counter is the number of open connections that hold the client. -/
structure Exact (s : DialRun) : Prop where
  has : ∀ conn ∈ s.conns, ∀ ref, conn.Holds ref → s.client.Has ref
  counted : ∀ conn ∈ s.conns, 0 ≤ conn.closed.toInt
  usage : ∀ ref, s.client.usage ref = Int32.ofNat (s.openConns ref)

variable {s s' : DialRun}

theorem exact_dial {input : DialInput} (hs : s.Exact)
    (hkeep : s.KeepsBalance (.dial input)) (h : s.step (.dial input) = some s') : s'.Exact := by
  rw [step] at h
  cases hslot : input.slot with
  | some err =>
    simp only [XHTTPClient.dialContext, hslot, Option.some.injEq] at h
    rw [← h]
    exact hs
  | none =>
    have hopen : s.client.StreamsOpen input := hkeep.resolve_left fun h => h hslot
    obtain ⟨conn, hclosed, hcounts, hres⟩ := s.client.dialContext_spec hslot
    rcases hdial : s.client.dialContext input with ⟨result, c⟩
    rw [hdial] at h hcounts hres
    obtain ⟨-, rfl⟩ : s.client.StreamsOpen input ∧ result = .ok conn :=
      hres.resolve_right fun h => h.1 hopen
    obtain rfl := Option.some.inj h
    refine ⟨fun conn' hconn' ref href => ?_, fun conn' hconn' => ?_, fun ref => ?_⟩
    · rcases List.mem_append.1 hconn' with hold | hnew
      · exact hcounts.has ref (hs.has conn' hold ref href)
      · rw [List.mem_singleton.1 hnew] at href
        exact hcounts.held ref href
    · rcases List.mem_append.1 hconn' with hold | hnew
      · exact hs.counted conn' hold
      · rw [List.mem_singleton.1 hnew, hclosed]
        decide
    · refine (hcounts.usage ref).trans ?_
      rw [hs.usage, openConns, openConns, countP_append, Int32.ofNat_add, countP_singleton, hclosed]
      by_cases href : conn.Holds ref
      · simp [href]
      · simp [href]

theorem exact_close {i : ℕ} {times : ℤ × ℤ} (hs : s.Exact)
    (hkeep : s.KeepsBalance (.close i times)) (h : s.step (.close i times) = some s') :
    s'.Exact := by
  rw [step] at h
  split at h
  · cases h
  · rename_i conn hconn
    obtain rfl := Option.some.inj h
    obtain ⟨hi, hget⟩ := List.getElem?_eq_some_iff.1 hconn
    have hmem : conn ∈ s.conns := mem_of_getElem? hconn
    have hcounted := hs.counted conn hmem
    have hnext := XHTTPClient.toInt_add_one (hkeep conn hconn)
    obtain ⟨hconn', hhas', husage'⟩ := XHTTPClient.close_spec conn hcounted (hkeep conn hconn)
      (hs.has conn hmem) times
    rw [hconn']
    refine ⟨fun conn' hmem' ref href => ?_, fun conn' hmem' => ?_, fun ref => ?_⟩
    · rcases mem_or_eq_of_mem_set hmem' with hold | rfl
      · exact hhas' ref (hs.has conn' hold ref href)
      · exact hhas' ref (hs.has conn hmem ref href)
    · rcases mem_or_eq_of_mem_set hmem' with hold | rfl
      · exact hs.counted conn' hold
      · simp only [hnext]
        omega
    · -- The connection is not open any more.
      have hne : conn.closed + 1 ≠ 0 := fun h => by
        rw [h] at hnext
        simp only [Int32.reduceToInt] at hnext
        omega
      refine (husage' ref).trans ?_
      rw [hs.usage, openConns, openConns, countP_set hi, hget]
      by_cases hopen : conn.closed = 0 ∧ conn.Holds ref
      · have hpos : 0 < s.conns.countP fun conn =>
            decide (conn.closed = 0) && decide (conn.Holds ref) :=
          List.countP_pos_iff.2 ⟨conn, hmem, by simp [hopen]⟩
        obtain ⟨n, hn⟩ := Nat.exists_eq_add_of_lt hpos
        simp [hn, hopen, Int32.ofNat_add]
      · simp [hne, hopen, ← Bool.decide_and]

theorem Exact.sameUsage {c : XHTTPClient} (hs : s.Exact) (h : XHTTPClient.SameUsage s.client c) :
    Exact { s with client := c } where
  has conn hconn ref href := h.has ref (hs.has conn hconn ref href)
  counted := hs.counted
  usage ref := (h.usage ref).trans (hs.usage ref)

variable {events : List DialEvent}

/-- **The run lemma.** -/
theorem exact_run (hrun : Schedule.run step s events = some s')
    (halong : Schedule.Along step KeepsBalance s events) (hs : s.Exact) : s'.Exact := by
  refine Schedule.run_invariant (I := Exact) (fun s e s' h hkeep hs => ?_) hrun halong hs
  cases e with
  | dial input => exact exact_dial hs hkeep h
  | close i times => exact exact_close hs hkeep h
  | post ref inflightPosts leftRequests =>
    obtain rfl := Option.some.inj h
    exact hs.sameUsage (s.client.sameUsage_modify ref _ fun _ => rfl)
  | rotate now draw =>
    obtain rfl := Option.some.inj h
    exact hs.sameUsage (s.client.sameUsage_getHTTPClient now draw).1

/-- **Along every run whose steps meet the condition**, `OpenUsage` of every client is the number of
open connections that hold it. -/
theorem usage_eq_open {events : List DialEvent} (hrun : Schedule.run step s events = some s')
    (halong : Schedule.Along step KeepsBalance s events) (hs : s.Exact) (ref : XmuxRef) :
    s'.client.usage ref = Int32.ofNat (s'.openConns ref) :=
  (exact_run hrun halong hs).usage ref

/-- A transport without connections. -/
def fresh : DialRun := ⟨{ XHTTPClient.smallPosts with mode := .streamOne }, []⟩

/-- The first client may be used once and retires at once.  Its connection is closed within the
grace period, after a second dial. -/
def twoDials : List DialEvent :=
  [.dial { draw := { reuseTimes := 1 } }, .dial { now := 1000000000 }, .post (.upload 0) 1 9,
    .close 0 (2000000000, 2000000000), .post (.upload 0) 0 8]

theorem fresh_exact : fresh.Exact := ⟨nofun, nofun, fun ref => by cases ref <;> rfl⟩

theorem twoDials_keepsBalance : Schedule.Along step KeepsBalance fresh twoDials := by
  refine ⟨.inr ⟨rfl, nofun, nofun⟩, fun _ h => ?_⟩
  obtain rfl := Option.some.inj h
  refine ⟨.inr ⟨rfl, nofun, nofun⟩, fun _ h => ?_⟩
  obtain rfl := Option.some.inj h
  refine ⟨trivial, fun _ h => ?_⟩
  obtain rfl := Option.some.inj h
  refine ⟨fun conn h => ?_, fun _ _ => ⟨trivial, fun _ _ => trivial⟩⟩
  obtain rfl := Option.some.inj h
  decide

theorem usage_twoDials : ∃ s, Schedule.run step fresh twoDials = some s ∧
    s.openConns (.upload 0) = 0 ∧ s.openConns (.upload 2) = 1 ∧
      ∀ ref, s.client.usage ref = Int32.ofNat (s.openConns ref) :=
  ⟨_, rfl, rfl, rfl, usage_eq_open rfl twoDials_keepsBalance fresh_exact⟩

/-! ### Clients are reaped -/

/-- A retired client of either pool that no open connection holds and that has no posts in flight is
idle after the grace period, and `SweepRetired` closes it. -/
def Reaps (s : DialRun) : Prop :=
  ∀ ref pool id now, s.client.pool? ref = some (pool, id) → id ∈ pool.val.retired →
    s.openConns ref = 0 → (pool.val.client id).inflightPosts = 0 →
    xmuxHandoutCloseGrace ≤ now - (pool.val.client id).handedOutAt →
      (pool.val.client id).idleLocked now = true ∧ id ∈ (pool.sweepRetired now).val.closed

/-- **The counters balance, and clients are reaped.**  A dial keeps the counters right if and only
if it meets the condition; and if they are right, then in every run of which each step meets it a
client without connections is reaped. -/
theorem balanced_reaped (s : DialRun) (input : DialInput) (times : List (ℤ × ℤ)) :
    (s.client.Balanced input times ↔
      input.slot ≠ none ∨ s.client.StreamsOpen input ∧ times.length < 2 ^ 31) ∧
    (s.Exact → ∀ events s', Schedule.run step s events = some s' →
      Schedule.Along step KeepsBalance s events → s'.Reaps) := by
  refine ⟨s.client.balanced_iff input times, fun hs events s' hrun halong => ?_⟩
  intro ref pool id now hpool hretired hconns hposts hgrace
  have husage := (exact_run hrun halong hs).usage ref
  rw [hconns, XHTTPClient.usage_of_pool? hpool] at husage
  exact XmuxPool.idle_of_retired hretired ⟨husage, hposts, hgrace⟩

theorem twoDials_reaped : fresh.client.Balanced {} [(0, 0), (1, 1)] ∧
    ∃ s, Schedule.run step fresh twoDials = some s ∧ s.client.xmuxManager.val.retired = [0] ∧
      (s.client.xmuxManager.val.client 0).idleLocked 10000000000 = true ∧
        0 ∈ (s.client.xmuxManager.sweepRetired 10000000000).val.closed := by
  obtain ⟨hbalanced, hreaped⟩ := balanced_reaped fresh {} [(0, 0), (1, 1)]
  refine ⟨hbalanced.2 (.inr ⟨⟨rfl, nofun, nofun⟩, by decide⟩), _, rfl, rfl, ?_⟩
  exact hreaped fresh_exact twoDials _ rfl twoDials_keepsBalance (.upload 0) _ 0 10000000000 rfl
    (by decide) rfl rfl (by decide)

end DialRun

end SingBox
