/-
**Client subnets** (`dns/extension_edns0_subnet.go`).

`SetClientSubnet` puts a prefix into the client subnet option of a query.  It looks for an `OPT`
record with such an option; if there is none it takes an `OPT` record without one, and if there is
no `OPT` record it adds one.  The search keeps its two results in variables that are assigned in
every round of the loop.  A record after the `OPT` record therefore makes it forgotten, and the
message gets a second one.

The function shares the records of the message with its caller, or copies them, so that records are
objects behind pointers here.

* `DNS.MsgPtr.read_setClientSubnet` — the function on pointers is the one on values, and
  does not touch the message of the caller;
* `DNS.carriesSubnet_setExtra_iff` — when the option is set as it should be;
* `DNS.setClientSubnet_iff` — **the two together**;
* `DNS.trailingRecord_doubles` — a record after the `OPT` record.
-/

import SingBox.DNSMessage
import SingBox.ObjectHeap

namespace SingBox.DNS

open ObjectHeap List EDNS0 RR Option

/-! ### The search -/

/-- The loop of `setClientSubnet`: the positions of the record and of the option that its two
variables point to at the end.  Both are assigned in every round. -/
def findExists : List RR → ℕ → Option ℕ → Option ℕ × Option ℕ
  | [], _, optRecord => (optRecord, none)
  | record :: records, i, _ =>
    match record.options? with
    | none => findExists records (i + 1) none
    | some options =>
      match options.findIdx? isSubnet with
      | some j => (some i, some j)
      | none => findExists records (i + 1) (some i)

/-- No `OPT` record has the option. -/
def NoSubnet (records : List RR) : Prop :=
  ∀ r ∈ records, ∀ options, r.options? = some options → ∀ o ∈ options, o.isSubnet = false

/-- What the search can find. -/
inductive Search (records : List RR) : Option ℕ × Option ℕ → Prop
  /-- The first option, in whatever record. -/
  | option {front back : List RR} {record : RR} {options : List EDNS0} {j : ℕ}
      (hrecords : records = front ++ record :: back) (hoptions : record.options? = some options)
      (hj : options.findIdx? isSubnet = some j) : Search records (some front.length, some j)
  /-- Without an option, an `OPT` record that is the last of all records. -/
  | last {front : List RR} {record : RR} (hnone : NoSubnet records)
      (hrecords : records = front ++ [record]) (hopt : record.isOPT) :
      Search records (some front.length, none)
  /-- Otherwise nothing. -/
  | nothing (hnone : NoSubnet records) (hlast : ∀ r ∈ records.getLast?, r.isOPT = false) :
      Search records (none, none)

theorem findExists_spec {front records : List RR} {optRecord : Option ℕ} (hfront : NoSubnet front)
    (hopt : ∀ i, optRecord = some i → ∃ init record, front = init ++ [record] ∧
      record.isOPT ∧ i = init.length)
    (hnone : optRecord = none → ∀ r ∈ front.getLast?, r.isOPT = false) :
    Search (front ++ records) (findExists records front.length optRecord) := by
  induction records generalizing front optRecord with
  | nil =>
    rw [findExists, append_nil]
    cases optRecord with
    | none => exact .nothing hfront (hnone rfl)
    | some i =>
      obtain ⟨init, record, hinit, hrecord, rfl⟩ := hopt i rfl
      exact .last hfront hinit hrecord
  | cons record records ih =>
    have hstep : front ++ record :: records = (front ++ [record]) ++ records := by simp
    have hlen : (front ++ [record]).length = front.length + 1 := by simp
    rw [findExists]
    cases hopts : record.options? with
    | none =>
      -- The record is not an `OPT` record, and the variable is cleared.
      have hisOPT : record.isOPT = false := by rw [isOPT, hopts]; rfl
      rw [hstep, ← hlen]
      refine ih ?_ nofun fun _ r hr => ?_
      · intro r hr
        rcases List.mem_append.1 hr with hr | hr
        · exact hfront r hr
        · rw [List.mem_singleton.1 hr, hopts]
          nofun
      · rw [getLast?_concat, Option.mem_some_iff] at hr
        rw [← hr]
        exact hisOPT
    | some options =>
      have hisOPT : record.isOPT := by rw [isOPT, hopts]; rfl
      dsimp only
      cases hj : options.findIdx? isSubnet with
      | some j => exact .option rfl hopts hj
      | none =>
        rw [findIdx?_eq_none_iff] at hj
        rw [hstep, ← hlen]
        refine ih ?_ (fun i hi => ?_) nofun
        · intro r hr
          rcases List.mem_append.1 hr with hr | hr
          · exact hfront r hr
          · rw [List.mem_singleton.1 hr, hopts]
            intro options' h
            cases h
            exact hj
        · rw [some.injEq] at hi
          exact ⟨front, record, rfl, hisOPT, hi.symm⟩

theorem search_findExists (records : List RR) : Search records (findExists records 0 none) :=
  @findExists_spec [] records none nofun nofun nofun

/-! ### Setting the option -/

/-- The assignments to the fields of an option. -/
def EDNS0.setPrefix (p : Prefix) : EDNS0 → EDNS0
  | .subnet code _ _ sourceScope _ =>
    .subnet code (if p.addr.is4 then 1 else 2) p.bitsByte sourceScope p.addr.asSlice
  | o => o

/-- The end of `setClientSubnet`: a new option is added if none was found, and filled in. -/
def setOptions (p : Prefix) (subnetOption : Option ℕ) (options : List EDNS0) : List EDNS0 :=
  match subnetOption with
  | some j => options.modify j (setPrefix p)
  | none => options ++ [setPrefix p (.subnet 8 0 0 0 [])]

/-- The same for a record. -/
def RR.setSubnet (p : Prefix) (subnetOption : Option ℕ) (r : RR) : RR :=
  match r.data with
  | .opt options => { r with data := .opt (setOptions p subnetOption options) }
  | _ => r

/-- The `OPT` record that is added. -/
def newOPT : RR := ⟨[46], 0, 0, .opt []⟩

/-- What becomes of the additional records. -/
def setExtra (p : Prefix) (extra : List RR) : List RR :=
  match findExists extra 0 none with
  | (some i, subnetOption) => extra.modify i (setSubnet p subnetOption)
  | (none, subnetOption) => extra ++ [newOPT.setSubnet p subnetOption]

/-- `SetClientSubnet` as a function of the message. -/
def Msg.setClientSubnet (p : Prefix) (m : Msg) : Msg := { m with extra := setExtra p m.extra }

/-! ### Messages with shared records -/

/-- `*dns.Msg`: the sections hold pointers to records. -/
structure MsgPtr where
  base : Msg
  (answer ns extra : List ℕ)

namespace MsgPtr

/-- The message as a value. -/
def read (heap : List RR) (m : MsgPtr) : Msg :=
  { m.base with answer := readAll heap m.answer, ns := readAll heap m.ns,
                extra := readAll heap m.extra }

/-- All pointers of the message lead to records. -/
structure Sound (heap : List RR) (m : MsgPtr) : Prop where
  answer : Valid heap m.answer
  ns : Valid heap m.ns
  extra : Valid heap m.extra

/-- `Msg.Copy`. -/
def copy (heap : List RR) (m : MsgPtr) : MsgPtr × List RR :=
  let answer := readAll heap m.answer
  let ns := readAll heap m.ns
  let extra := readAll heap m.extra
  ({ m with answer := List.range' heap.length answer.length
            ns := List.range' (heap ++ answer).length ns.length
            extra := List.range' (heap ++ answer ++ ns).length extra.length },
    heap ++ answer ++ ns ++ extra)

/-- `setClientSubnet` without cloning. -/
def setInPlace (p : Prefix) (heap : List RR) (m : MsgPtr) : MsgPtr × List RR :=
  match findExists (readAll heap m.extra) 0 none with
  | (some i, subnetOption) =>
    (m, heap.modify (m.extra.getD i heap.length) (setSubnet p subnetOption))
  | (none, subnetOption) =>
    ({ m with extra := m.extra ++ [heap.length] },
      (heap ++ [newOPT]).modify heap.length (setSubnet p subnetOption))

/-- `SetClientSubnet`: a message in which an `OPT` record is found is copied first, and searched
again. -/
def setClientSubnet (p : Prefix) (heap : List RR) (m : MsgPtr) : MsgPtr × List RR :=
  match findExists (readAll heap m.extra) 0 none with
  | (some _, _) => setInPlace p (m.copy heap).2 (m.copy heap).1
  | (none, _) => setInPlace p heap m

variable {p : Prefix} {heap : List RR} {m : MsgPtr}

theorem read_append (h : m.Sound heap) (more : List RR) : m.read (heap ++ more) = m.read heap := by
  rw [read, readAll_append h.answer, readAll_append h.ns, readAll_append h.extra, read]

theorem read_copy (heap : List RR) (extra : List RR)
    (hlen : extra.length = (readAll heap m.extra).length) :
    (m.copy heap).1.read (heap ++ readAll heap m.answer ++ readAll heap m.ns ++ extra) =
      { m.read heap with extra := extra } := by
  have hvalid : ∀ front back : List RR, Valid (front ++ back) (List.range' front.length back.length)
      := by
    intro front back q hq
    rw [mem_range'_1] at hq
    rw [length_append]
    exact hq.2
  have hanswer := readAll_range' heap (readAll heap m.answer)
  have hns := readAll_range' (heap ++ readAll heap m.answer) (readAll heap m.ns)
  have hextra := readAll_range' (heap ++ readAll heap m.answer ++ readAll heap m.ns) extra
  rw [hlen] at hextra
  rw [read, read]
  dsimp only [copy]
  rw [hextra, readAll_append (hvalid _ _), hns, append_assoc, append_assoc,
    ← append_assoc heap, readAll_append (hvalid _ _), hanswer]

/-- **The function on pointers is the one on values**, and does not touch the message of the
caller. -/
theorem read_setClientSubnet (h : m.Sound heap) :
    (m.setClientSubnet p heap).1.read (m.setClientSubnet p heap).2 =
        (m.read heap).setClientSubnet p ∧
      m.read (m.setClientSubnet p heap).2 = m.read heap := by
  have hset : (m.read heap).setClientSubnet p =
      { m.read heap with extra := setExtra p (readAll heap m.extra) } := rfl
  rw [hset, setExtra, setClientSubnet]
  rcases hfind : findExists (readAll heap m.extra) 0 none with ⟨optRecord, subnetOption⟩
  cases optRecord with
  | none =>
    have hheap : (heap ++ [newOPT]).modify heap.length (setSubnet p subnetOption) =
        heap ++ [newOPT.setSubnet p subnetOption] :=
      modify_append heap [newOPT] 0 (setSubnet p subnetOption)
    have hnew : readAll (heap ++ [newOPT.setSubnet p subnetOption]) [heap.length] =
        [newOPT.setSubnet p subnetOption] := readAll_range' heap _
    dsimp only
    rw [setInPlace, hfind]
    dsimp only
    rw [hheap]
    refine ⟨?_, read_append h _⟩
    rw [read, read]
    dsimp only
    rw [readAll_append h.answer, readAll_append h.ns, readAll_append_pointers,
      readAll_append h.extra, hnew]
  | some i =>
    dsimp only
    -- The copy is searched again, with the same result.
    have hcopy := read_copy heap (readAll heap m.extra) rfl
    have hfind' : findExists (readAll (m.copy heap).2 (m.copy heap).1.extra) 0 none =
        (some i, subnetOption) := by
      rw [← hfind]
      exact congrArg (fun m : Msg => findExists m.extra 0 none) hcopy
    have hi : i < (readAll heap m.extra).length := by
      have hsearch := search_findExists (readAll heap m.extra)
      rw [hfind] at hsearch
      cases hsearch with
      | option hrecords | last hnone hrecords => simp [hrecords]
    have hpointer : (m.copy heap).1.extra.getD i (m.copy heap).2.length =
        (heap ++ readAll heap m.answer ++ readAll heap m.ns).length + i := by
      dsimp only [copy]
      rw [getD_eq_getElem?_getD, getElem?_range' hi, Option.getD_some, Nat.one_mul]
    have hheap : (m.copy heap).1.setInPlace p (m.copy heap).2 =
        ((m.copy heap).1, heap ++ readAll heap m.answer ++ readAll heap m.ns ++
          (readAll heap m.extra).modify i (setSubnet p subnetOption)) := by
      rw [setInPlace, hfind']
      dsimp only
      rw [hpointer, ← modify_append]
      rfl
    rw [hheap]
    refine ⟨read_copy heap _ (length_modify _ _ _), ?_⟩
    rw [append_assoc, append_assoc]
    exact read_append h _

end MsgPtr

/-! ### What should come out -/

/-- The option holds the family, the length and the address of the prefix. -/
def EDNS0.Encodes (p : Prefix) : EDNS0 → Prop
  | .subnet _ family sourceNetmask _ address =>
    family = (if p.addr.is4 then 1 else 2) ∧ sourceNetmask.toNat = p.bits ∧
      address = p.addr.asSlice
  | .other _ _ => False

/-- There is one `OPT` record, it has one client subnet option, which holds the prefix, and the
other records are the same as before. -/
def CarriesSubnet (p : Prefix) (before after : List RR) : Prop :=
  (∃ record options option, after.filter (·.isOPT) = [record] ∧ record.options? = some options ∧
    options.filter (·.isSubnet) = [option] ∧ option.Encodes p) ∧
    after.filter (!·.isOPT) = before.filter (!·.isOPT)

/-- The same for messages, of which all but the additional records stays as it is. -/
def SubnetSet (p : Prefix) (before after : Msg) : Prop :=
  after = { before with extra := after.extra } ∧ CarriesSubnet p before.extra after.extra

/-- There is no `OPT` record; or there is one, with one client subnet option; or there is one
without such an option, and it is the last record. -/
def SubnetReady (extra : List RR) : Prop :=
  extra.filter (·.isOPT) = [] ∨ ∃ record options, extra.filter (·.isOPT) = [record] ∧
    record.options? = some options ∧
      ((options.filter (·.isSubnet)).length = 1 ∨
        options.filter (·.isSubnet) = [] ∧ extra.getLast? = some record)

section

variable {p : Prefix}

theorem EDNS0.encodes_setPrefix (hp : p.isValid) {o : EDNS0} (ho : o.isSubnet) :
    (o.setPrefix p).Encodes p := by
  have hbits : p.bitsByte.toNat = p.bits := by
    have hfits := hp
    rw [Prefix.isValid, Bool.and_eq_true, decide_eq_true_iff] at hfits
    have hlen : p.addr.bitLen ≤ 128 := by cases p.addr <;> simp [Addr.bitLen]
    rw [Prefix.bitsByte, if_pos hp, UInt8.toNat_ofNat']
    omega
  cases o with
  | subnet code family sourceNetmask sourceScope address => exact ⟨rfl, hbits, rfl⟩
  | other code data => cases ho

theorem EDNS0.isSubnet_setPrefix (o : EDNS0) : (o.setPrefix p).isSubnet = o.isSubnet := by
  cases o <;> rfl

variable {options : List EDNS0}

theorem RR.options?_setSubnet {r : RR} (h : r.options? = some options) (subnetOption : Option ℕ) :
    (r.setSubnet p subnetOption).options? = some (setOptions p subnetOption options) := by
  obtain ⟨name, rrclass, ttl, data⟩ := r
  cases data <;> cases h
  rfl

theorem RR.isOPT_of_options? {r : RR} (h : r.options? = some options) : r.isOPT := by
  rw [isOPT, h]
  rfl

theorem filter_modify {j : ℕ} (hj : options.findIdx? isSubnet = some j) :
    ∃ option rest, option.isSubnet ∧ options.filter (·.isSubnet) = option :: rest ∧
      (options.modify j (setPrefix p)).filter (·.isSubnet) = option.setPrefix p :: rest := by
  induction options generalizing j with
  | nil => cases hj
  | cons o options ih =>
    rw [findIdx?_cons] at hj
    cases ho : o.isSubnet with
    | true =>
      rw [if_pos ho, some.injEq] at hj
      subst hj
      refine ⟨o, options.filter (·.isSubnet), ho, filter_cons_of_pos ho, ?_⟩
      rw [modify_zero_cons, filter_cons_of_pos]
      rw [isSubnet_setPrefix, ho]
    | false =>
      rw [if_neg (by simp [ho]), Option.map_eq_some_iff] at hj
      obtain ⟨j, hj, rfl⟩ := hj
      obtain ⟨option, rest, hoption, hfilter, hmodify⟩ := ih hj
      refine ⟨option, rest, hoption, ?_, ?_⟩
      · rw [filter_cons_of_neg (by simp [ho]), hfilter]
      · rw [modify_succ_cons, filter_cons_of_neg (by simp [ho]), hmodify]

theorem append_cons_eq_singleton {α : Type} {front back : List α} {a x : α} :
    front ++ a :: back = [x] ↔ front = [] ∧ back = [] ∧ a = x := by
  cases front <;> simp [and_comm]

variable (front back : List RR) {record : RR}

theorem filter_isOPT_cons (h : record.isOPT) :
    (front ++ record :: back).filter (·.isOPT) =
        front.filter (·.isOPT) ++ record :: back.filter (·.isOPT) ∧
      (front ++ record :: back).filter (!·.isOPT) =
        front.filter (!·.isOPT) ++ back.filter (!·.isOPT) := by
  rw [filter_append, filter_append, filter_cons_of_pos h, filter_cons_of_neg (by simp [h])]
  exact ⟨rfl, rfl⟩

theorem carriesSubnet_iff {before front back : List RR} (hoptions : record.options? = some options)
    (hothers : before.filter (!·.isOPT) = front.filter (!·.isOPT) ++ back.filter (!·.isOPT)) :
    CarriesSubnet p before (front ++ record :: back) ↔
      front.filter (·.isOPT) = [] ∧ back.filter (·.isOPT) = [] ∧
        ∃ option, options.filter (·.isSubnet) = [option] ∧ option.Encodes p := by
  obtain ⟨hopts, hrest⟩ := filter_isOPT_cons front back (isOPT_of_options? hoptions)
  rw [CarriesSubnet, hopts, hrest, hothers]
  constructor
  · rintro ⟨⟨r, options', option, hsingle, hoptions', hfilter, hencodes⟩, -⟩
    obtain ⟨hfront, hback, rfl⟩ := append_cons_eq_singleton.1 hsingle
    rw [hoptions, some.injEq] at hoptions'
    subst hoptions'
    exact ⟨hfront, hback, option, hfilter, hencodes⟩
  · rintro ⟨hfront, hback, option, hfilter, hencodes⟩
    exact ⟨⟨record, options, option, append_cons_eq_singleton.2 ⟨hfront, hback, rfl⟩, hoptions,
      hfilter, hencodes⟩, rfl⟩

theorem subnetReady_iff {front back : List RR} (hoptions : record.options? = some options) :
    SubnetReady (front ++ record :: back) ↔
      front.filter (·.isOPT) = [] ∧ back.filter (·.isOPT) = [] ∧
        ((options.filter (·.isSubnet)).length = 1 ∨ options.filter (·.isSubnet) = [] ∧
          (front ++ record :: back).getLast? = some record) := by
  obtain ⟨hopts, -⟩ := filter_isOPT_cons front back (isOPT_of_options? hoptions)
  rw [SubnetReady, hopts]
  constructor
  · rintro (hnone | ⟨r, options', hsingle, hoptions', hready⟩)
    · cases (List.append_eq_nil_iff.1 hnone).2
    · obtain ⟨hfront, hback, rfl⟩ := append_cons_eq_singleton.1 hsingle
      rw [hoptions, some.injEq] at hoptions'
      subst hoptions'
      exact ⟨hfront, hback, hready⟩
  · rintro ⟨hfront, hback, hready⟩
    exact .inr ⟨record, options, append_cons_eq_singleton.2 ⟨hfront, hback, rfl⟩, hoptions, hready⟩

theorem modify_length (f : RR → RR) :
    (front ++ record :: back).modify front.length f = front ++ f record :: back :=
  modify_append front (record :: back) 0 f

theorem exists_option_setExtra (p : Prefix) (extra : List RR) :
    ∃ front record back option options, setExtra p extra = front ++ record :: back ∧
      record.options? = some (option :: options) := by
  have hsearch := search_findExists extra
  rw [setExtra]
  rcases hfind : findExists extra 0 none with ⟨optRecord, subnetOption⟩
  rw [hfind] at hsearch
  have hnonempty : ∀ {r : RR} {options : List EDNS0}, r.options? = some options →
      setOptions p subnetOption options ≠ [] → ∃ option options',
        (r.setSubnet p subnetOption).options? = some (option :: options') := by
    intro r options hopts hne
    obtain ⟨option, options', heq⟩ := exists_cons_of_ne_nil hne
    exact ⟨option, options', (options?_setSubnet hopts _).trans (congrArg some heq)⟩
  cases hsearch with
  | @option front back record options j hrecords hopts hj =>
    subst hrecords
    have hne : setOptions p (some j) options ≠ [] := by
      intro hnil
      have hlen := congrArg List.length hnil
      rw [setOptions, length_modify, length_nil, length_eq_zero_iff] at hlen
      rw [hlen] at hj
      cases hj
    obtain ⟨option, options', hset⟩ := hnonempty hopts hne
    exact ⟨front, _, back, option, options', modify_length _ _ _, hset⟩
  | @last front record hnone hrecords hopt =>
    subst hrecords
    obtain ⟨options, hopts⟩ := Option.isSome_iff_exists.1 hopt
    obtain ⟨option, options', hset⟩ := hnonempty hopts (append_ne_nil_of_right_ne_nil _
      (cons_ne_nil _ _))
    exact ⟨front, _, [], option, options', modify_length _ _ _, hset⟩
  | nothing hnone hlast => exact ⟨extra, _, [], _, _, rfl, rfl⟩

/-- **When the option is set as it should be.** -/
theorem carriesSubnet_setExtra_iff (hp : p.isValid) (extra : List RR) :
    CarriesSubnet p extra (setExtra p extra) ↔ SubnetReady extra := by
  have hsearch := search_findExists extra
  have hnew : ((EDNS0.subnet 8 0 0 0 []).setPrefix p).Encodes p := encodes_setPrefix hp rfl
  rw [setExtra]
  rcases hfind : findExists extra 0 none with ⟨optRecord, subnetOption⟩
  rw [hfind] at hsearch
  cases hsearch with
  | @option front back record options j hrecords hopts hj =>
    subst hrecords
    obtain ⟨option, rest, hoption, hfilter, hmodify⟩ := filter_modify (p := p) hj
    have hencodes := encodes_setPrefix hp hoption
    dsimp only
    rw [modify_length, carriesSubnet_iff (options?_setSubnet hopts (some j))
      (filter_isOPT_cons _ _ (isOPT_of_options? hopts)).2, subnetReady_iff hopts]
    refine and_congr_right fun _ => and_congr_right fun _ => ?_
    rw [setOptions, hmodify, hfilter]
    constructor
    · rintro ⟨option', hsingle, -⟩
      rw [List.cons.injEq] at hsingle
      rw [hsingle.2]
      exact .inl rfl
    · rintro (hlen | ⟨hnil, -⟩)
      · rw [length_cons, Nat.add_eq_right, length_eq_zero_iff] at hlen
        rw [hlen]
        exact ⟨option.setPrefix p, rfl, hencodes⟩
      · cases hnil
  | @last front record hnone hrecords hopt =>
    subst hrecords
    obtain ⟨options, hopts⟩ := Option.isSome_iff_exists.1 hopt
    have hfilter : options.filter (·.isSubnet) = [] := by
      rw [filter_eq_nil_iff]
      intro o ho
      rw [hnone record (by simp) options hopts o ho]
      exact Bool.false_ne_true
    dsimp only
    rw [modify_length, carriesSubnet_iff (options?_setSubnet hopts none)
      (filter_isOPT_cons _ _ hopt).2, subnetReady_iff hopts, setOptions, filter_append,
      hfilter]
    refine and_congr_right fun _ => and_congr_right fun _ => ?_
    exact iff_of_true ⟨_, rfl, hnew⟩ (.inr ⟨rfl, getLast?_concat⟩)
  | nothing hnone hlast =>
    have hopts : (newOPT.setSubnet p none).options? = some (setOptions p none []) := rfl
    dsimp only
    rw [carriesSubnet_iff hopts (by simp), SubnetReady]
    constructor
    · rintro ⟨hfront, -, -⟩
      exact .inl hfront
    · rintro (hfront | ⟨record, options, hsingle, hopts', hready⟩)
      · exact ⟨hfront, rfl, _, rfl, hnew⟩
      · -- The one `OPT` record has no option and is not the last record.
        have hmem : record ∈ extra.filter (·.isOPT) := by simp [hsingle]
        obtain ⟨hmem, hopt⟩ := List.mem_filter.1 hmem
        rcases hready with hlen | ⟨-, hlast'⟩
        · have hfilter : options.filter (·.isSubnet) = [] := by
            rw [filter_eq_nil_iff]
            intro o ho
            rw [hnone record hmem options hopts' o ho]
            exact Bool.false_ne_true
          rw [hfilter] at hlen
          cases hlen
        · rw [hlast record hlast'] at hopt
          cases hopt

end

/-! ### The result -/

/-- **When `SetClientSubnet` does what it should.**  For every message and every valid prefix, the
returned message has one `OPT` record with one client subnet option that holds the prefix, all else
is as it was, and the message of the caller is unchanged, if and only if the additional records are
ready for it. -/
theorem setClientSubnet_iff {p : Prefix} (hp : p.isValid = true) {heap : List RR} {m : MsgPtr}
    (hm : m.Sound heap) :
    SubnetSet p (m.read heap) ((m.setClientSubnet p heap).1.read (m.setClientSubnet p heap).2) ∧
        m.read (m.setClientSubnet p heap).2 = m.read heap ↔
      SubnetReady (m.read heap).extra := by
  obtain ⟨hread, hcaller⟩ := MsgPtr.read_setClientSubnet (p := p) hm
  rw [hread, ← carriesSubnet_setExtra_iff hp]
  constructor
  · rintro ⟨⟨-, hcarries⟩, -⟩
    exact hcarries
  · intro hcarries
    exact ⟨⟨rfl, hcarries⟩, hcaller⟩

/-- The `OPT` record of a query, a record of another type, and a query with given records. -/
def queryOPT : RR := ⟨[46], 1232, 0, .opt []⟩

def tsigRecord : RR := ⟨[46], 255, 0, .other ⟨250, by decide⟩ []⟩

def sampleQuery (extra : List ℕ) : MsgPtr := ⟨{ id := 1 }, [], [], extra⟩

/-- `192.0.2.0/24`. -/
def samplePrefix : Prefix := ⟨.v4 0xc0000200#32, 24⟩

theorem lastRecord_set :
    SubnetReady [tsigRecord, queryOPT] ∧
      SubnetSet samplePrefix ((sampleQuery [0, 1]).read [tsigRecord, queryOPT])
        (((sampleQuery [0, 1]).setClientSubnet samplePrefix [tsigRecord, queryOPT]).1.read
          ((sampleQuery [0, 1]).setClientSubnet samplePrefix [tsigRecord, queryOPT]).2) := by
  have hready : SubnetReady [tsigRecord, queryOPT] := .inr ⟨queryOPT, [], rfl, rfl, .inr ⟨rfl, rfl⟩⟩
  have hsound : (sampleQuery [0, 1]).Sound [tsigRecord, queryOPT] :=
    ⟨by simp [Valid, sampleQuery], by simp [Valid, sampleQuery], by simp [Valid, sampleQuery]⟩
  exact ⟨hready, ((setClientSubnet_iff (by decide) hsound).2 hready).1⟩

/-- **A record after the `OPT` record** makes `SetClientSubnet` add a second one. -/
theorem trailingRecord_doubles :
    (((sampleQuery [0, 1]).setClientSubnet samplePrefix [queryOPT, tsigRecord]).1.read
        ((sampleQuery [0, 1]).setClientSubnet samplePrefix [queryOPT, tsigRecord]).2).extra =
      [queryOPT, tsigRecord, ⟨[46], 0, 0, .opt [.subnet 8 1 24 0 [192, 0, 2, 0]]⟩] ∧
    ¬SubnetSet samplePrefix ((sampleQuery [0, 1]).read [queryOPT, tsigRecord])
      (((sampleQuery [0, 1]).setClientSubnet samplePrefix [queryOPT, tsigRecord]).1.read
        ((sampleQuery [0, 1]).setClientSubnet samplePrefix [queryOPT, tsigRecord]).2) := by
  refine ⟨by decide, fun h => ?_⟩
  obtain ⟨-, ⟨record, options, option, hsingle, -⟩, -⟩ := h
  have hlength := congrArg List.length hsingle
  rw [length_singleton] at hlength
  revert hlength
  decide

end SingBox.DNS
