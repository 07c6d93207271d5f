import TraceLink.Proofs.Endpoints
import TraceLink.Proofs.EntrySpans
import TraceLink.Proofs.UsageErrors

/-! # Two ways to fill an outbound carrier

    A carrier is filled while the exit span is opened, or from the exit span once it is
    open. Either way the strand and the tracer are left in the same state, and the
    carrier says the same of the trace.

    The two differ in where the address comes from: it is the peer that the exit span
    is opened to, or the peer that the span has. A recorded span keeps its peer. A
    placeholder keeps nothing, so a carrier that is filled from it has no address. -/

namespace TraceLink

/-! ### Addresses in a carrier -/

namespace RemoteContext

/-- **Readdressed**: two fillings of a carrier that differ in the address only. -/
inductive Readdressed (k : Carrier) (address address' : String) : Carrier → Carrier → Prop where
  | ignored : Readdressed k address address' (injectIgnored k) (injectIgnored k)
  | remote (c : RemoteContext) (haddress : c.address = address) :
      Readdressed k address address' (c.inject k) ({ c with address := address' }.inject k)

theorem ofText_inj {a b : String} (h : Text.Base64.ofText a = Text.Base64.ofText b) : a = b := by
  have hread := congrArg Text.Base64.toText h
  rw [Text.Base64.toText_ofText, Text.Base64.toText_ofText] at hread
  exact Except.ok.inj hread

/-- The address can be told from the link header, of which it is the last field. -/
theorem address_of_inject {c : RemoteContext} {address : String} {k : Carrier}
    (h : { c with address := address }.inject k = c.inject k) : address = c.address := by
  have hlink := congrArg Carrier.link h
  simp only [inject, Option.some.injEq, String.ofList_inj, linkFields, Text.joined_cons,
    Text.joined_singleton, List.append_cancel_left_eq, List.cons.injEq, true_and] at hlink
  exact ofText_inj hlink

theorem inject_ne_injectIgnored (c : RemoteContext) (k : Carrier) :
    c.inject k ≠ injectIgnored k := by
  intro h
  have hextension := congrArg Carrier.extension h
  simp [inject, injectIgnored] at hextension

/-- The fillings are the same if the addresses are, or if no address is sent. -/
theorem Readdressed.eq_iff {k k₁ k₂ : Carrier} {address address' : String}
    (h : Readdressed k address address' k₁ k₂) :
    k₂ = k₁ ↔ address' = address ∨ k₁ = injectIgnored k := by
  cases h with
  | ignored => simp only [or_true]
  | remote c haddress =>
    subst haddress
    constructor
    · exact fun heq => .inl (address_of_inject heq)
    · rintro (rfl | hignored)
      · rfl
      · exact absurd hignored (c.inject_ne_injectIgnored k)

end RemoteContext

/-! ### Sending from an exit span -/

namespace OpenSegment

/-- The same frame sends to two peers: only the address differs. -/
theorem readdressed_send (o : OpenSegment) (f : Frame) (peer peer' : String) (k : Carrier)
    (now : UInt64) :
    RemoteContext.Readdressed k peer peer' (o.send f peer k now).value
      (o.send f peer' k now).value := by
  unfold send
  split
  · exact .ignored
  · cases f with
    | recorded s => exact .remote (o.remoteContext s.id (some s) peer now) rfl
    | placeholder name =>
      cases o.nearestRecorded? with
      | none => exact .ignored
      | some s => exact .remote (o.remoteContext s.id none peer now) rfl

theorem remoteContext_push {f f' : Frame} (htitle : f'.title? = f.title?) (o : OpenSegment)
    (span : Int) (peer : String) (now : UInt64) :
    (o.push f').remoteContext span f'.span? peer now =
      o.remoteContext span f.span? peer now := by
  have hendpoint : (o.push f').endpoint? f'.span? = o.endpoint? f.span? := by
    rw [endpoint?_active (o := o.push f') rfl, endpoint?_push, endpoint?_congr htitle]
  unfold remoteContext
  rw [hendpoint]
  rfl

/-- It makes no difference whether the frame that sends is on the stack already. -/
theorem send_push {f f' : Frame} (htitle : f'.title? = f.title?) (o : OpenSegment)
    (peer : String) (k : Carrier) (now : UInt64) :
    ((o.push f').send f' peer k now).value = (o.send f peer k now).value := by
  have hcontext (span : Int) := remoteContext_push htitle o span peer now
  unfold send
  rw [show (o.push f').sampled = o.sampled from rfl]
  split
  · rfl
  · cases f with
    | recorded s =>
      cases f' with
      | placeholder name => contradiction
      | recorded s' =>
        have hid : s'.id = s.id := congrArg Prod.fst (Option.some.inj htitle)
        simp only [Logged.pure_value, hid]
        exact congrArg (RemoteContext.inject · k) (hcontext s.id)
    | placeholder name =>
      cases f' with
      | recorded s' => contradiction
      | placeholder name' =>
        -- the innermost recorded span is below the placeholder
        rw [show (o.push (.placeholder name')).nearestRecorded? = o.nearestRecorded? from
          nearestRecorded?_push o _]
        cases o.nearestRecorded? with
        | none => rfl
        | some x => exact congrArg (RemoteContext.inject · k) (hcontext x.id)

/-! ### Exit spans -/

/-- A new exit span, before it is tagged and pushed, and the segment below it. -/
def exitFrame (o : OpenSegment) (limit : Nat) (name peer : String) (now : UInt64) :
    Frame × OpenSegment :=
  let (f, o) := (o.newFrame limit .exit name now).value
  ((f.modify (Span.setPeer peer)).value, o)

/-- The carrier has no part in how an exit span is opened. -/
theorem openExit_value (c : Config) (o : OpenSegment) (name peer : String) (k : Option Carrier)
    (now : UInt64) :
    (o.openExit c name peer k now).value =
      let (f, o) := o.exitFrame c.spanLimit name peer now
      let tagged := (o.autoTag c.autoTagKeys f).value
      (tagged, k.map fun k => (o.send f peer k now).value, o.push tagged) := by
  cases k with
  | none => rfl
  | some k => rfl

/-- The frame of an exit span is a placeholder, or a span that is open and has the peer. -/
theorem exitFrame_cases (o : OpenSegment) (limit : Nat) (name peer : String) (now : UInt64) :
    (o.exitFrame limit name peer now).1 = .placeholder name ∨
    (o.exitFrame limit name peer now).1 =
      .recorded { o.freshSpan .exit name now with peer := some peer } := by
  unfold exitFrame newFrame
  by_cases hdropped : (!o.sampled) = true
  · rw [if_pos hdropped]
    exact .inl rfl
  rw [if_neg hdropped]
  by_cases hfull : o.isFull limit = true
  · rw [if_pos hfull]
    exact .inl rfl
  · rw [if_neg hfull]
    exact .inr rfl

/-- **A carrier is filled from an exit span** as it is filled when the span is opened, but
    for the address. -/
theorem inject_openExit (c : Config) (o : OpenSegment) (name peer : String) (k : Carrier)
    (now : UInt64) :
    ∃ f o' k₁ filled, (o.openExit c name peer (some k) now).value = (f, some k₁, o') ∧
      (o.openExit c name peer none now).value = (f, none, o') ∧
      o'.inject k now = .ok filled ∧
      (peerOf f = peer ↔ f.span?.isSome ∨ peer = "") ∧
      RemoteContext.Readdressed k peer (peerOf f) k₁ filled.value := by
  simp only [openExit_value, Option.map_some, Option.map_none]
  cases hframe : o.exitFrame c.spanLimit name peer now with
  | mk f o' =>
    have hcases := o.exitFrame_cases c.spanLimit name peer now
    rw [hframe] at hcases
    have hsent (tagged : Frame) (htitle : tagged.title? = f.title?) :
        RemoteContext.Readdressed k peer (peerOf tagged) (o'.send f peer k now).value
          ((o'.push tagged).send tagged (peerOf tagged) k now).value := by
      rw [send_push htitle]
      exact o'.readdressed_send f peer (peerOf tagged) k now
    refine ⟨_, _, _, (o'.push _).send _ (peerOf _) k now, rfl, rfl, ?_, ?_,
      hsent _ (o'.title?_autoTag c.autoTagKeys f)⟩
    · rcases hcases with rfl | rfl
      · rfl
      · rw [autoTag_recorded o' c.autoTagKeys rfl]
        simp [inject, active?, push, freshSpan]
    · rcases hcases with rfl | rfl
      · simp [autoTag, Frame.modify, peerOf, Frame.span?, eq_comm]
      · rw [autoTag_recorded o' c.autoTagKeys rfl]
        simp [peerOf, Frame.span?]

/-! ### What is sent -/

/-- **Sending**: a carrier that was filled from the segment says that the trace is ignored,
    or holds the context of the segment, with one of its open spans as the parent. -/
inductive Sent (o : OpenSegment) (now : UInt64) : Carrier → Prop where
  | ignored (k : Carrier) : Sent o now (RemoteContext.injectIgnored k)
  | recorded {x : Span} (hx : .recorded x ∈ o.stack) (fresh : Option Span) (peer : String)
      (k : Carrier) : Sent o now ((o.remoteContext x.id fresh peer now).inject k)

variable {o : OpenSegment}

theorem sent_send {f : Frame} (hf : f ∈ o.stack) (peer : String) (k : Carrier) (now : UInt64) :
    o.Sent now (o.send f peer k now).value := by
  unfold send
  split
  · exact .ignored k
  · cases f with
    | recorded s => exact .recorded hf (some s) peer k
    | placeholder name =>
      cases hnearest : o.nearestRecorded? with
      | none => exact .ignored k
      | some s =>
        -- the innermost recorded span stands in for the placeholder
        obtain ⟨f', hf', hs⟩ := List.exists_of_findSome?_eq_some hnearest
        obtain rfl := Frame.eq_recorded hs
        exact .recorded hf' none peer k

theorem sent_inject {k : Carrier} {now : UInt64} {step : Logged Carrier}
    (h : o.inject k now = .ok step) : o.Sent now step.value := by
  unfold inject at h
  split at h
  · contradiction
  · next f hf =>
    have hmem : f ∈ o.stack := List.mem_of_head? hf
    split at h
    · split at h
      · contradiction
      · obtain rfl := Except.ok.inj h
        exact sent_send hmem _ k now
    · obtain rfl := Except.ok.inj h
      exact sent_send hmem _ k now

/-- The carrier is filled before the exit span is on the stack, which makes no difference. -/
theorem sent_openExit {c : Config} {name peer : String} {k : Option Carrier} {filled : Carrier}
    {now : UInt64} (h : (o.openExit c name peer k now).value.2.1 = some filled) :
    (o.openExit c name peer k now).value.2.2.Sent now filled := by
  rw [openExit_value] at h ⊢
  obtain ⟨k, -, rfl⟩ := Option.map_eq_some_iff.mp h
  let frame := o.exitFrame c.spanLimit name peer now
  let tagged := (frame.2.autoTag c.autoTagKeys frame.1).value
  have hsent := sent_send (o := frame.2.push tagged) (f := tagged) List.mem_cons_self peer k now
  rw [send_push (frame.2.title?_autoTag c.autoTagKeys frame.1)] at hsent
  exact hsent

end OpenSegment

/-! ### Sites and engines -/

namespace Site

/-- Opening an exit span and then filling a carrier from it. -/
theorem inject_exit (s : Site) (name peer : String) (k : Carrier) (now : UInt64) :
    ∃ f s' k₁ filled, (s.exit name peer (some k) now).value = (f, some k₁, s') ∧
      (s.exit name peer none now).value = (f, none, s') ∧
      s'.inject k now = .ok filled ∧
      (OpenSegment.peerOf f = peer ↔ f.span?.isSome ∨ peer = "") ∧
      RemoteContext.Readdressed k peer (OpenSegment.peerOf f) k₁ filled.value := by
  unfold exit
  simp only [Logged.bind_value, Logged.pure_value]
  cases (s.segmentFor name .undecided now).value with
  | mk o s₁ =>
    obtain ⟨f, o', k₁, filled, hone, htwo, hinject, hpeer, hsent⟩ :=
      o.inject_openExit s₁.tracer.config name peer k now
    refine ⟨f, s₁.withActive o', k₁, filled, ?_, ?_, inject_eq_ok.mpr ⟨o', rfl, hinject⟩,
      hpeer, hsent⟩
    · simp only [hone]
    · simp only [htwo]

end Site

/-- The carrier that was filled by an operation. -/
def Reply.filled? : Reply → Option Carrier
  | .sent _ k => k
  | .carrier k => some k
  | _ => none

/-- The reply holds nothing of a segment that can be sent on: no carrier and no snapshot. -/
def Reply.IsSilent : Reply → Prop
  | .sent .. | .carrier _ | .snapshot _ => False
  | _ => True

theorem Reply.IsSilent.filled? {r : Reply} (h : r.IsSilent) : r.filled? = none := by
  cases r with
  | sent f k => exact h.elim
  | carrier k => exact h.elim
  | _ => rfl

namespace Site

/-- Three operations hand something of a segment out. -/
theorem isSilent_cases (s : Site) (now : UInt64) (op : StrandOp) :
    (s.step now op).value.reply.IsSilent ∨ (∃ name peer k, op = .exit name peer k) ∨
      (∃ k, op = .inject k) ∨ op = .capture := by
  have hattempt {β : Type} {a : Attempt UsageError Site β} {F : β → Logged (Outcome Site)}
      (h : ∀ y, (F y).value.reply.IsSilent) :
      (Outcome.ofAttempt .usage (a.map F)).value.reply.IsSilent := by
    cases a with
    | error x => exact trivial
    | ok y => exact h y
  cases op with
  | exit name peer k => exact .inr (.inl ⟨name, peer, k, rfl⟩)
  | inject k => exact .inr (.inr (.inl ⟨k, rfl⟩))
  | capture => exact .inr (.inr (.inr rfl))
  | stop expected => exact .inl (hattempt fun _ => trivial)
  | extract k => exact .inl (hattempt fun _ => trivial)
  | active => exact .inl (hattempt fun _ => trivial)
  | edit edits => exact .inl (hattempt fun _ => trivial)
  | prepareAsync => exact .inl (hattempt fun _ => trivial)
  | _ => exact .inl trivial

/-- **Every carrier** that an operation fills is sent from the segment that is open then. -/
theorem sent_step {s : Site} {now : UInt64} {op : StrandOp} {filled : Carrier}
    (hfilled : (s.step now op).value.reply.filled? = some filled) :
    ∃ o, (s.step now op).value.state.strand.active = some o ∧ o.Sent now filled := by
  rcases s.isSilent_cases now op with hsilent | ⟨name, peer, k, rfl⟩ | ⟨k, rfl⟩ | rfl
  · rw [hsilent.filled?] at hfilled
    contradiction
  · simp only [step, exit, Logged.bind_value, Logged.pure_value] at hfilled
    exact ⟨_, rfl, OpenSegment.sent_openExit hfilled⟩
  · have hsame := congrArg (·.strand.active) (s.state_inject now k)
    cases hinject : s.inject k now with
    | error x =>
      simp only [step, hinject] at hfilled
      contradiction
    | ok step =>
      simp only [Site.step, hinject] at hfilled
      obtain rfl := Option.some.inj hfilled
      obtain ⟨o, hactive, hsent⟩ := inject_eq_ok.mp hinject
      exact ⟨o, hsame.trans hactive, OpenSegment.sent_inject hsent⟩
  · contradiction

theorem sent_of_filled {s : Site} {now : UInt64} {op : StrandOp} {filled : Carrier}
    {o : OpenSegment} (hfilled : (s.step now op).value.reply.filled? = some filled)
    (hafter : (s.step now op).value.state.strand.active = some o) : o.Sent now filled := by
  obtain ⟨o', hactive, hsent⟩ := sent_step hfilled
  obtain rfl := Option.some.inj (hafter.symm.trans hactive)
  exact hsent

end Site

/-- The exit span that was opened is recorded. -/
def Reply.isRecordedExit : Reply → Bool
  | .sent f _ => f.span?.isSome
  | _ => false

namespace Engine

/-- **Two ways to send**: an exit span that is opened with a carrier, and one that is
    opened without and fills the carrier afterwards, succeed alike and leave the same
    state. The carriers agree but for the address, and they agree in full just if the
    span is recorded, has no peer, or the trace is sent as ignored. -/
theorem exit_then_inject (e : Engine) {k : Nat} {s : Site} (hsite : e.site? k = some s)
    (now : UInt64) (name peer : String) (c : Carrier) :
    let one := (e.step now (.strand k (.exit name peer (some c)))).value
    let opened := (e.step now (.strand k (.exit name peer none))).value
    let two := (opened.state.step now (.strand k (.inject c))).value
    ∃ f c₁ c₂, one.reply = .sent f (some c₁) ∧ opened.reply = .sent f none ∧
      two.reply = .carrier c₂ ∧ one.handed = none ∧ opened.handed = none ∧ two.handed = none ∧
      opened.state = one.state ∧ two.state = one.state ∧
      RemoteContext.Readdressed c peer (OpenSegment.peerOf f) c₁ c₂ ∧
      (c₂ = c₁ ↔ f.span?.isSome ∨ peer = "" ∨ c₁ = RemoteContext.injectIgnored c) := by
  obtain ⟨f, s', c₁, filled, hone, htwo, hinject, hpeer, hsent⟩ := s.inject_exit name peer c now
  have hone' : (s.step now (.exit name peer (some c))).value = .of (.sent f (some c₁)) s' := by
    simp only [Site.step, Logged.bind_value, Logged.pure_value, hone]
  have hopened' : (s.step now (.exit name peer none)).value = .of (.sent f none) s' := by
    simp only [Site.step, Logged.bind_value, Logged.pure_value, htwo]
  have hfilled : (s'.step now (.inject c)).value = .of (.carrier filled.value) s' := by
    show (Outcome.ofAttempt .usage _).value = _
    rw [hinject]
    rfl
  intro one opened two
  have hone : one = (Outcome.of (.sent f (some c₁)) s').map (e.setSite k) := by
    rw [← hone', ← step_strand hsite]
  have hopened : opened = (Outcome.of (.sent f none) s').map (e.setSite k) := by
    rw [← hopened', ← step_strand hsite]
  have hstate : opened.state = e.setSite k s' := congrArg Outcome.state hopened
  have hsite' : opened.state.site? k = some s' := by
    rw [hstate]
    exact site?_setSite hsite s'
  have htwo : two = (Outcome.of (.carrier filled.value) s').map (opened.state.setSite k) := by
    rw [← hfilled, ← step_strand hsite']
  -- the site is stored as it is there already
  have hagain : (e.setSite k s').setSite k s' = e.setSite k s' :=
    setSite_self (site?_setSite hsite s')
  refine ⟨f, c₁, filled.value, congrArg Outcome.reply hone, congrArg Outcome.reply hopened,
    congrArg Outcome.reply htwo, congrArg Outcome.handed hone, congrArg Outcome.handed hopened,
    congrArg Outcome.handed htwo, ?_, ?_, hsent, ?_⟩
  · rw [hone, hopened]
    rfl
  · rw [htwo, hone, hstate]
    exact hagain
  · rw [hsent.eq_iff, hpeer, or_assoc]

theorem exit_then_inject_recorded :
    let e := (ofTracer (.start (Config.standard "i") .collecting "p" 0)).run [(0, .openStrand)]
    let one := (e.step 1 (.strand 0 (.exit "get" "stock:8080" (some (.empty ""))))).value
    let opened := (e.step 1 (.strand 0 (.exit "get" "stock:8080" none))).value
    let two := (opened.state.step 1 (.strand 0 (.inject (.empty "")))).value
    ∃ f c, one.reply = .sent f (some c) ∧ f.span?.isSome ∧ opened.reply = .sent f none ∧
      two.reply = .carrier c ∧ two.state = one.state := by
  intro e one opened two
  have hthere : (e.site? 0).isSome := by decide +kernel
  obtain ⟨s, hsite⟩ := Option.isSome_iff_exists.mp hthere
  obtain ⟨f, c₁, c₂, hone, hopened, htwo, -, -, -, -, hstate, -, heq⟩ :=
    exit_then_inject e hsite 1 "get" "stock:8080" (.empty "")
  have hrecorded : one.reply.isRecordedExit := by decide +kernel
  rw [show one.reply = _ from hone] at hrecorded
  obtain rfl := heq.mpr (.inl hrecorded)
  exact ⟨f, c₂, hone, hrecorded, hopened, htwo, hstate⟩

/-- A segment that has room for one span. -/
def fullRun : List (UInt64 × Op) := [(0, .openStrand), (1, .strand 0 (.entry "/orders" none))]

/-- Above the span limit only the first of the two ways sends the address. -/
theorem exit_then_inject_address_lost :
    let e := (ofTracer (.start { Config.standard "i" with spanLimit := 1 } .collecting "p" 0)).run
      fullRun
    let one := (e.step 2 (.strand 0 (.exit "get" "stock:8080" (some (.empty ""))))).value
    let opened := (e.step 2 (.strand 0 (.exit "get" "stock:8080" none))).value
    let two := (opened.state.step 2 (.strand 0 (.inject (.empty "")))).value
    let address (reply : Reply) := reply.filled?.map fun c =>
      match (RemoteContext.extract e.tracer.config.correlationLimits c).value with
      | .remote r => some r.address
      | _ => none
    one.state = two.state ∧ address one.reply = some (some "stock:8080") ∧
      address two.reply = some (some "") ∧ one.reply.filled? ≠ two.reply.filled? := by
  decide +kernel

end Engine

end TraceLink
