import Defender.Ipc.Channel
import Defender.SysLog.Collection
import Defender.UDisk.Monitor

/-!
# From the Senders to the Components

The service as a whole: the channel that brings the messages to the thread
that dispatches them, and the five components it hands them to. The event type
of a message selects the component, and its code one of two functions. Three
of the components make a string of the data before they look at the code, and
a size that is too large would have them read past the batch.

The thread that dispatches runs the functions itself. So there is no next
message before the function has returned, while everybody else goes on: the
senders, the thread that polls, and the threads that the components have
started. For the devices and the System log the function is a sequence of
steps of the component's own machine. Of the other three the model keeps which
functions were called.

Nothing is lost or reordered on the way. A component is given exactly the
functions that the accepted messages of its type ask for, as far as they have
been handed over, and all it does is a run of its own machine. The thread that
dispatches never faults, because the size of a message that was accepted is
right.

## Main definitions

* `controlOf`: The switch on the message code.
* `dispatchMessages`: The handlers of the components.
* `Service`, `Label`, `step`: The service.
* `commandsOf`: What messages ask of a component.
* `Calls`: What a component was called for.

## Theorems

* `handOver_cases`: What a hand-over does.
* `inside_step`: Queued messages lie inside their batches.
* `routed_step`: A component is called as the messages ask.
* `service_routes`: What the components are given, over every run.
* `service_settles`: What has become of all messages when nothing is under way.
-/

namespace Defender

namespace Ipc

open UDisk SysLog

/-- The switch of `DispatchMessages` on the message code: `1` opens, and `2`
    closes. -/
def controlOf (dwMsgCode : UInt32) : Option ControlFunction :=
  if dwMsgCode = 1 then some .enableFunction
  else if dwMsgCode = 2 then some .disableFunction
  else none

/-- A `DispatchMessages` that makes a string of `Data` first, which fails past
    the end of the batch. -/
def stringDispatch (pIpcMsg : IpcMsgPtr) : Option (Option ControlFunction) :=
  if pIpcMsg.offset + msgHeaderLen + pIpcMsg.msg.dwSize.toNat ≤ pIpcMsg.buffer.length then
    some (controlOf pIpcMsg.msg.dwMsgCode)
  else none

/-- `CWLUDisk::DispatchMessages`. -/
def deviceDispatch (pIpcMsg : IpcMsgPtr) : Option (Option ControlFunction) :=
  some (controlOf pIpcMsg.msg.dwMsgCode)

/-- `CFileScan::DispatchMessages`. -/
def fileScanDispatch (pIpcMsg : IpcMsgPtr) : Option (Option ControlFunction) :=
  stringDispatch pIpcMsg

/-- `CFireWallControl::DispatchMessages`. -/
def fireWallDispatch (pIpcMsg : IpcMsgPtr) : Option (Option ControlFunction) :=
  stringDispatch pIpcMsg

/-- `Clipboard::DispatchMessages`. -/
def clipboardDispatch (pIpcMsg : IpcMsgPtr) : Option (Option ControlFunction) :=
  some (controlOf pIpcMsg.msg.dwMsgCode)

/-- `DispatchMessages` of each component: the function it calls, if any. -/
def dispatchMessages (pIpcMsg : IpcMsgPtr) : Component → Option (Option ControlFunction)
  | .deviceControl => deviceDispatch pIpcMsg
  | .systemLogControl =>
      (systemLogDispatch (UInt32.ofNat pIpcMsg.buffer.length) pIpcMsg).map Prod.snd
  | .fileScanControl => fileScanDispatch pIpcMsg
  | .fireWallControl => fireWallDispatch pIpcMsg
  | .clipboardControl => clipboardDispatch pIpcMsg

/-- The message of the device component that calls the function. -/
def deviceCommand : ControlFunction → Monitor.Command
  | .enableFunction => .openAll
  | .disableFunction => .closeAll

/-- The message of the System log component that calls the function. -/
def logCommand : ControlFunction → Collection.Command
  | .enableFunction => .openAll
  | .disableFunction => .closeAll

/-- The channel, and the components. -/
structure Service where
  channel : Channel
  device : Monitor.State
  systemLog : Collection.State
  fileScan : List ControlFunction
  fireWall : List ControlFunction
  clipboard : List ControlFunction

/-- What happens next: something in the channel, or something in one of the two
    components that have steps of their own. -/
inductive Label where
  | ipc (e : Event)
  | device (l : Monitor.Label)
  | systemLog (l : Collection.Label)

/-- The thread that dispatches is not in a function of a component. -/
def Service.Idle (s : Service) : Prop :=
  s.device.dispatcher = .idle ∧ s.systemLog.dispatcher = .idle

instance (s : Service) : Decidable s.Idle :=
  inferInstanceAs (Decidable (_ ∧ _))

/-- The call of a function of a component. -/
def Service.call (s : Service) : Component → ControlFunction → Option Service
  | .deviceControl, f =>
      (Monitor.step s.device (.message (deviceCommand f))).map fun d => { s with device := d }
  | .systemLogControl, f =>
      (Collection.step s.systemLog (.message (logCommand f))).map fun c =>
        { s with systemLog := c }
  | .fileScanControl, f => some { s with fileScan := s.fileScan ++ [f] }
  | .fireWallControl, f => some { s with fireWall := s.fireWall ++ [f] }
  | .clipboardControl, f => some { s with clipboard := s.clipboard ++ [f] }

/-- `DispatchMessageFun`. -/
def Service.dispatchMessageFun (s : Service) (MessageData : IpcMsgPtr) : Option Service :=
  match componentOf MessageData.msg.dwEventType with
  | none => some s
  | some c =>
      match dispatchMessages MessageData c with
      | none => none
      | some none => some s
      | some (some f) => s.call c f

/-- One step, if the label is enabled. Messages reach the components only by the
    thread that dispatches. -/
def serviceStep (s : Service) : Label → Option Service
  | .ipc .getCount =>
      if s.Idle then (step s.channel .getCount).map fun channel => { s with channel := channel }
      else none
  | .ipc .getHead =>
      match s.channel.queue.getHead, step s.channel .getHead with
      | some (MessageData, _), some channel =>
          if s.Idle then { s with channel := channel }.dispatchMessageFun MessageData else none
      | _, _ => none
  | .ipc e => (step s.channel e).map fun channel => { s with channel := channel }
  | .device (.message _) => none
  | .device l => (Monitor.step s.device l).map fun d => { s with device := d }
  | .systemLog (.message _) => none
  | .systemLog l => (Collection.step s.systemLog l).map fun c => { s with systemLog := c }

/-- Nothing sent yet, and no component called. -/
structure ServiceStart (cap : UInt32) (s : Service) : Prop where
  channel : Start cap s.channel
  device : s.device = Monitor.start
  systemLog : s.systemLog = Collection.start
  fileScan : s.fileScan = []
  fireWall : s.fireWall = []
  clipboard : s.clipboard = []

/-- What one message asks of a component. -/
def commandOf (c : Component) (msg : IpcMsgData) : Option ControlFunction :=
  if componentOf msg.dwEventType = some c then controlOf msg.dwMsgCode else none

/-- What messages ask of a component, in their order. -/
def commandsOf (c : Component) (msgs : List IpcMsgData) : List ControlFunction :=
  msgs.filterMap (commandOf c)

/-- What a component was called for. -/
def Service.Calls (s : Service) : Component → List ControlFunction → Prop
  | .deviceControl, fs => s.device.messages = fs.map deviceCommand
  | .systemLogControl, fs => s.systemLog.messages = fs.map logCommand
  | .fileScanControl, fs => s.fileScan = fs
  | .fireWallControl, fs => s.fireWall = fs
  | .clipboardControl, fs => s.clipboard = fs

/-- The sends are admissible. -/
def ServiceAdmissible (s : Service) : Label → Prop
  | .ipc e => Admissible s.channel e
  | _ => True

instance (s : Service) (l : Label) : Decidable (ServiceAdmissible s l) :=
  match l with
  | .ipc (.send _ _ _ dwDataSize lpEventData) =>
      inferInstanceAs (Decidable (_ ∧ ∀ payload ∈ lpEventData, dwDataSize.toNat ≤ payload.length))
  | .ipc .readData | .ipc .split | .ipc .getCount | .ipc .getHead | .device _ | .systemLog _ =>
      isTrue trivial

/-- Threads, windows and notifications of the device component can be had. -/
def DeviceCallsSucceed (s : Service) : Label → Prop
  | .device l => Monitor.CallsSucceed s.device l
  | _ => True

/-! ### Hand-overs -/

/-- A message that lies inside its batch. -/
def IpcMsgPtr.Whole (p : IpcMsgPtr) : Prop :=
  p.buffer.length < 2 ^ 32 ∧
    p.offset + msgHeaderLen + p.msg.dwSize.toNat ≤ p.buffer.length

/-- A handler that returns has looked at the message code. -/
theorem dispatchMessages_eq (p : IpcMsgPtr) (c : Component) (fo : Option ControlFunction)
    (h : dispatchMessages p c = some fo) : fo = controlOf p.msg.dwMsgCode := by
  have hstring : stringDispatch p = some fo → fo = controlOf p.msg.dwMsgCode := by
    intro h
    unfold stringDispatch at h
    split at h
    · exact (Option.some.inj h).symm
    · exact absurd h (by simp only [reduceCtorEq, not_false_eq_true])
  cases c with
  | deviceControl => exact (Option.some.inj h).symm
  | systemLogControl =>
      simp only [dispatchMessages, systemLogDispatch] at h
      split at h
      · exact (Option.some.inj h).symm
      · exact absurd h (by simp only [Option.map_none, reduceCtorEq, not_false_eq_true])
  | fileScanControl => exact hstring h
  | fireWallControl => exact hstring h
  | clipboardControl => exact (Option.some.inj h).symm

/-- Every handler returns for a message that lies inside its batch. -/
theorem dispatchMessages_whole (p : IpcMsgPtr) (c : Component) (h : p.Whole) :
    dispatchMessages p c = some (controlOf p.msg.dwMsgCode) := by
  have hstring : stringDispatch p = some (controlOf p.msg.dwMsgCode) := if_pos h.2
  cases c with
  | deviceControl => rfl
  | systemLogControl =>
      have hlen : (UInt32.ofNat p.buffer.length).toNat = p.buffer.length := by
        rw [UInt32.toNat_ofNat']
        exact Nat.mod_eq_of_lt h.1
      simp only [dispatchMessages, systemLogDispatch, hlen, if_pos h.2]
      rfl
  | fileScanControl => exact hstring
  | fireWallControl => exact hstring
  | clipboardControl => rfl

/-- A call leaves the channel alone. The component that is called has been called
    once more, and the others have not. -/
theorem call_calls (s t : Service) (c : Component) (f : ControlFunction)
    (h : s.call c f = some t) :
    t.channel = s.channel ∧ (∀ fs, s.Calls c fs → t.Calls c (fs ++ [f])) ∧
      ∀ c' fs, c' ≠ c → s.Calls c' fs → t.Calls c' fs := by
  cases c with
  | deviceControl =>
      -- The monitor keeps the messages that it was given.
      rcases Option.map_eq_some_iff.mp h with ⟨d, hd, rfl⟩
      rcases Monitor.message_cases s.device d _ hd with ⟨-, rfl⟩
      refine ⟨rfl, fun fs hfs => ?_, fun c' fs hne hfs => ?_⟩
      · change s.device.messages ++ [deviceCommand f] = (fs ++ [f]).map deviceCommand
        rw [List.map_append, ← hfs]
        rfl
      · cases c' with
        | deviceControl => exact absurd rfl hne
        | _ => exact hfs
  | systemLogControl =>
      rcases Option.map_eq_some_iff.mp h with ⟨d, hd, rfl⟩
      rcases Collection.message_cases s.systemLog d _ hd with ⟨-, rfl⟩
      refine ⟨rfl, fun fs hfs => ?_, fun c' fs hne hfs => ?_⟩
      · change s.systemLog.messages ++ [logCommand f] = (fs ++ [f]).map logCommand
        rw [List.map_append, ← hfs]
        rfl
      · cases c' with
        | systemLogControl => exact absurd rfl hne
        | _ => exact hfs
  | fileScanControl =>
      -- The others have nothing but the list of their calls.
      rw [Service.call, Option.some.injEq] at h
      subst h
      refine ⟨rfl, fun fs hfs => congrArg (· ++ [f]) hfs, fun c' fs hne hfs => ?_⟩
      cases c' with
      | fileScanControl => exact absurd rfl hne
      | _ => exact hfs
  | fireWallControl =>
      rw [Service.call, Option.some.injEq] at h
      subst h
      refine ⟨rfl, fun fs hfs => congrArg (· ++ [f]) hfs, fun c' fs hne hfs => ?_⟩
      cases c' with
      | fireWallControl => exact absurd rfl hne
      | _ => exact hfs
  | clipboardControl =>
      rw [Service.call, Option.some.injEq] at h
      subst h
      refine ⟨rfl, fun fs hfs => congrArg (· ++ [f]) hfs, fun c' fs hne hfs => ?_⟩
      cases c' with
      | clipboardControl => exact absurd rfl hne
      | _ => exact hfs

/-- For the two components with steps of their own a call is one of their steps,
    or none. -/
theorem call_parts (s t : Service) (c : Component) (f : ControlFunction)
    (h : s.call c f = some t) :
    (t.device = s.device ∨ ∃ m, Monitor.step s.device (.message m) = some t.device) ∧
      (t.systemLog = s.systemLog ∨
        ∃ m, Collection.step s.systemLog (.message m) = some t.systemLog) := by
  cases c with
  | deviceControl =>
      rcases Option.map_eq_some_iff.mp h with ⟨d, hd, rfl⟩
      exact ⟨Or.inr ⟨_, hd⟩, Or.inl rfl⟩
  | systemLogControl =>
      rcases Option.map_eq_some_iff.mp h with ⟨d, hd, rfl⟩
      exact ⟨Or.inl rfl, Or.inr ⟨_, hd⟩⟩
  | fileScanControl =>
      rw [Service.call, Option.some.injEq] at h
      exact ⟨Or.inl (h ▸ rfl), Or.inl (h ▸ rfl)⟩
  | fireWallControl =>
      rw [Service.call, Option.some.injEq] at h
      exact ⟨Or.inl (h ▸ rfl), Or.inl (h ▸ rfl)⟩
  | clipboardControl =>
      rw [Service.call, Option.some.injEq] at h
      exact ⟨Or.inl (h ▸ rfl), Or.inl (h ▸ rfl)⟩

/-- What a hand-over does: nothing, or a call of the one component that the
    message asks something of. -/
theorem handOver_cases (s t : Service) (p : IpcMsgPtr) (h : s.dispatchMessageFun p = some t) :
    (t = s ∧ ∀ c, commandOf c p.msg = none) ∨
      ∃ c f, s.call c f = some t ∧ commandOf c p.msg = some f ∧
        ∀ c', c' ≠ c → commandOf c' p.msg = none := by
  unfold Service.dispatchMessageFun at h
  split at h
  · next hcomponent =>
      refine Or.inl ⟨(Option.some.inj h).symm, fun c => if_neg ?_⟩
      rw [hcomponent]
      simp only [reduceCtorEq, not_false_eq_true]
  · next c hcomponent =>
      have hother : ∀ c', c' ≠ c → commandOf c' p.msg = none := by
        intro c' hne
        refine if_neg (fun heq => hne ?_)
        exact (Option.some.inj (hcomponent.symm.trans heq)).symm
      have hone : commandOf c p.msg = controlOf p.msg.dwMsgCode := if_pos hcomponent
      split at h
      · exact absurd h (by simp only [reduceCtorEq, not_false_eq_true])
      · next hnone =>
          refine Or.inl ⟨(Option.some.inj h).symm, fun c' => ?_⟩
          by_cases hc : c' = c
          · rw [hc, hone]
            exact (dispatchMessages_eq p c none hnone).symm
          · exact hother c' hc
      · next f hsome =>
          exact Or.inr ⟨c, f, h, hone.trans (dispatchMessages_eq p c (some f) hsome).symm, hother⟩

/-- A hand-over adds what the message asks for to what the components were called
    for. -/
theorem handOver_calls (s t : Service) (p : IpcMsgPtr) (h : s.dispatchMessageFun p = some t) :
    t.channel = s.channel ∧
      ∀ c fs, s.Calls c fs → t.Calls c (fs ++ (commandOf c p.msg).toList) := by
  rcases handOver_cases s t p h with ⟨rfl, hnone⟩ | ⟨c, f, hcall, hf, hnone⟩
  · refine ⟨rfl, fun c fs hfs => ?_⟩
    rw [hnone, Option.toList_none, List.append_nil]
    exact hfs
  · rcases call_calls s t c f hcall with ⟨hchannel, hself, hother⟩
    refine ⟨hchannel, fun c' fs hfs => ?_⟩
    by_cases hc : c' = c
    · subst hc
      rw [hf, Option.toList_some]
      exact hself fs hfs
    · rw [hnone c' hc, Option.toList_none, List.append_nil]
      exact hother c' fs hc hfs

/-- A message that lies inside its batch can be handed over when no function is
    being run. -/
theorem handOver_total (s : Service) (p : IpcMsgPtr) (hp : p.Whole) (hidle : s.Idle) :
    ∃ t, s.dispatchMessageFun p = some t := by
  unfold Service.dispatchMessageFun
  cases componentOf p.msg.dwEventType with
  | none => exact ⟨s, rfl⟩
  | some c =>
      simp only [dispatchMessages_whole p c hp]
      cases controlOf p.msg.dwMsgCode with
      | none => exact ⟨s, rfl⟩
      | some f =>
          cases c with
          | deviceControl =>
              simp only [Service.call, Monitor.step, if_pos hidle.1]
              exact ⟨_, rfl⟩
          | systemLogControl =>
              simp only [Service.call, Collection.step, if_pos hidle.2]
              exact ⟨_, rfl⟩
          | fileScanControl => exact ⟨_, rfl⟩
          | fireWallControl => exact ⟨_, rfl⟩
          | clipboardControl => exact ⟨_, rfl⟩

/-! ### Steps of the channel -/

/-- A step other than `getHead` hands nothing over. Only `getCount` sees a count,
    and only the splitting loop queues a message. -/
theorem channel_cases (s t : Channel) (e : Event) (h : step s e = some t) (he : e ≠ .getHead) :
    t.handed = s.handed ∧ (e = .getCount ∨ t.counted = s.counted) ∧
      (t.queue.queue = s.queue.queue ∨
        ∃ b p next, s.batch = some b ∧
          splitStep b.pMsgData b.dwSize b.dwSizeDone = some (p, next) ∧
          t.queue.queue = s.queue.queue ++ [p]) := by
  cases e with
  | send i dwEventType dwMsgCode dwDataSize lpEventData =>
      simp only [step, stepSend] at h
      split at h
      · exact absurd h (by simp only [reduceCtorEq, not_false_eq_true])
      · rw [← Option.some.inj h]
        exact ⟨rfl, Or.inr rfl, Or.inl rfl⟩
  | readData =>
      simp only [step, stepReadData] at h
      split at h
      · exact absurd h (by simp only [reduceCtorEq, not_false_eq_true])
      · split at h
        · exact absurd h (by simp only [reduceCtorEq, not_false_eq_true])
        · rw [← Option.some.inj h]
          exact ⟨rfl, Or.inr rfl, Or.inl rfl⟩
  | split =>
      simp only [step, stepSplit] at h
      split at h
      · exact absurd h (by simp only [reduceCtorEq, not_false_eq_true])
      · next b hb =>
          split at h
          · rw [← Option.some.inj h]
            exact ⟨rfl, Or.inr rfl, Or.inl rfl⟩
          · next p next hsplit =>
              -- The only step that puts a message on the queue.
              rw [← Option.some.inj h]
              exact ⟨rfl, Or.inr rfl, Or.inr ⟨b, p, next, hb, hsplit, rfl⟩⟩
  | getCount =>
      simp only [step, stepGetCount] at h
      split at h
      · exact absurd h (by simp only [reduceCtorEq, not_false_eq_true])
      · rw [← Option.some.inj h]
        exact ⟨rfl, Or.inl rfl, Or.inl rfl⟩
  | getHead => exact absurd rfl he

/-- `getHead` hands over the head of the queue. -/
theorem getHead_cases (s t : Channel) (h : step s .getHead = some t) :
    ∃ p, s.queue.queue = p :: t.queue.queue ∧ t.counted = false ∧
      t.handed = s.handed ++ [p] := by
  simp only [step, stepGetHead, CWLMetaDataQueue.getHead] at h
  split at h
  · cases hq : s.queue.queue with
    | nil =>
        rw [hq] at h
        exact absurd h (by simp only [reduceCtorEq, not_false_eq_true])
    | cons p rest =>
        rw [hq] at h
        simp only [Option.some.injEq] at h
        subst h
        exact ⟨p, rfl, rfl, rfl⟩
  · exact absurd h (by simp only [reduceCtorEq, not_false_eq_true])

/-- A batch is split into messages that lie inside it. -/
theorem split_whole (cap : UInt32) (s : Channel) (b : Batch) (p : IpcMsgPtr) (next : UInt32)
    (h : Delivering cap s) (hb : s.batch = some b)
    (hsplit : splitStep b.pMsgData b.dwSize b.dwSizeDone = some (p, next)) : p.Whole := by
  rcases h.unsplit b hb with ⟨fs, hsize, hdone, hrest⟩
  cases fs with
  | nil =>
      have hlen := congrArg List.length hrest
      rw [List.length_drop, encodeAll, List.map_nil, List.flatten_nil, List.length_nil] at hlen
      rw [splitStep_short _ _ _ (by rw [msgHeaderLen]; omega)] at hsplit
      exact absurd hsplit (by simp only [reduceCtorEq, not_false_eq_true])
  | cons f fs =>
      rcases splitStep_frame b.pMsgData (encodeAll fs) b.dwSize b.dwSizeDone f hsize hrest with
        ⟨next', hsplit', hnext, hle, -, hmsg⟩
      rw [hsplit', Option.some.injEq, Prod.mk.injEq] at hsplit
      rw [← hsplit.1]
      have hlt := b.dwSize.toNat_lt
      refine ⟨hsize ▸ hlt, ?_⟩
      simp only [IpcMsgPtr.msg, hmsg]
      omega

/-- Queued messages lie inside their batches. -/
theorem inside_step (cap : UInt32) (s t : Channel) (e : Event) (h : Delivering cap s)
    (hin : ∀ p ∈ s.queue.queue, p.Whole) (hstep : step s e = some t) :
    ∀ p ∈ t.queue.queue, p.Whole := by
  by_cases he : e = .getHead
  · subst he
    rcases getHead_cases s t hstep with ⟨p, hqueue, -, -⟩
    rw [hqueue] at hin
    exact fun q hq => hin q (List.mem_cons_of_mem p hq)
  · rcases (channel_cases s t e hstep he).2.2 with hqueue | ⟨b, p, next, hb, hsplit, hqueue⟩
    · rw [hqueue]
      exact hin
    · rw [hqueue]
      intro q hq
      rcases List.mem_append.mp hq with hold | hnew
      · exact hin q hold
      · rw [List.mem_singleton.mp hnew]
        exact split_whole cap s b p next h hb hsplit

/-! ### Steps of the components -/

/-- Without a message the device component has no more messages, and an idle
    dispatcher stays idle. -/
theorem device_frame (s t : Monitor.State) (l : Monitor.Label) (h : Monitor.step s l = some t)
    (hl : ∀ c, l ≠ .message c) :
    t.messages = s.messages ∧ (s.dispatcher = .idle → t.dispatcher = .idle) := by
  cases l with
  | message c => exact absurd rfl (hl c)
  | dispatch value =>
      rcases Monitor.dispatch_cases s t value h with ⟨hpc, rfl⟩ | ⟨hpc, rfl⟩ | ⟨hpc, hmsgs, -⟩
      · exact ⟨rfl, fun hidle => absurd (hpc.symm.trans hidle) Monitor.DispatcherPc.noConfusion⟩
      · exact ⟨rfl, fun _ => rfl⟩
      · refine ⟨hmsgs, fun hidle => ?_⟩
        rw [hidle] at hpc
        exact absurd hpc (by simp only [Monitor.DispatcherPc.command, reduceCtorEq,
          not_false_eq_true])
  | thread i value =>
      rcases Monitor.thread_cases s t i value h with ⟨pc, pc', u, -, hu, rfl⟩
      rcases Monitor.threadStep_frame s u value pc pc' hu with ⟨hpc, hmsgs, -, -⟩
      exact ⟨hmsgs, fun hidle => hpc.trans hidle⟩

/-- The same for the System log component. -/
theorem systemLog_frame (s t : Collection.State) (l : Collection.Label)
    (h : Collection.step s l = some t) (hl : ∀ c, l ≠ .message c) :
    t.messages = s.messages ∧ (s.dispatcher = .idle → t.dispatcher = .idle) := by
  have hbusy : ∀ {pc : Collection.DispatcherPc}, pc ≠ .idle → s.dispatcher = pc →
      s.dispatcher = .idle → t.dispatcher = .idle :=
    fun hpc heq hidle => absurd (heq.symm.trans hidle) hpc
  cases l with
  | message c => exact absurd rfl (hl c)
  | exported =>
      rcases Collection.exported_cases s t h with ⟨hpc, rfl⟩
      exact ⟨rfl, hbusy Collection.DispatcherPc.noConfusion hpc⟩
  | beginThread created =>
      rcases Collection.beginThread_cases s t created h with ⟨hpc, rfl⟩ | ⟨hpc, rfl⟩
      · refine ⟨?_, hbusy Collection.DispatcherPc.noConfusion hpc⟩
        cases created <;> rfl
      · refine ⟨?_, hbusy Collection.DispatcherPc.noConfusion hpc⟩
        cases created <;> rfl
  | store =>
      rcases Collection.store_cases s t h with ⟨hpc, rfl⟩ | ⟨hpc, rfl⟩
      · exact ⟨rfl, hbusy Collection.DispatcherPc.noConfusion hpc⟩
      · exact ⟨rfl, hbusy Collection.DispatcherPc.noConfusion hpc⟩
  | thread i call =>
      rcases Collection.thread_cases s t i call h with ⟨th, pc, -, -, rfl⟩
      exact ⟨rfl, fun hidle => hidle⟩

/-! ### Steps of the service -/

/-- A step of the service is one of the channel, a hand-over, or one of a
    component. -/
theorem serviceStep_cases (s t : Service) (l : Label) (h : serviceStep s l = some t) :
    (∃ e channel, l = .ipc e ∧ e ≠ .getHead ∧ (e = .getCount → s.Idle) ∧
        step s.channel e = some channel ∧ t = { s with channel := channel }) ∨
      (∃ p channel, l = .ipc .getHead ∧ step s.channel .getHead = some channel ∧
        channel.handed = s.channel.handed ++ [p] ∧ channel.counted = false ∧
        { s with channel := channel }.dispatchMessageFun p = some t) ∨
      (∃ l' d, l = .device l' ∧ (∀ c, l' ≠ .message c) ∧ Monitor.step s.device l' = some d ∧
        t = { s with device := d }) ∨
      (∃ l' c, l = .systemLog l' ∧ (∀ m, l' ≠ .message m) ∧
        Collection.step s.systemLog l' = some c ∧ t = { s with systemLog := c }) := by
  unfold serviceStep at h
  split at h
  · split at h
    · next hidle =>
        rcases Option.map_eq_some_iff.mp h with ⟨channel, hchannel, rfl⟩
        exact Or.inl ⟨_, channel, rfl, Event.noConfusion, fun _ => hidle, hchannel, rfl⟩
    · exact absurd h (by simp only [reduceCtorEq, not_false_eq_true])
  · split at h
    · next MessageData q channel hhead hchannel =>
        split at h
        · rcases getHead_cases s.channel channel hchannel with ⟨p, hqueue, hcounted, hhanded⟩
          -- The head that was read is the one that was handed over.
          rw [CWLMetaDataQueue.getHead, hqueue, Option.some.injEq, Prod.mk.injEq] at hhead
          rw [← hhead.1] at h
          exact Or.inr (Or.inl ⟨p, channel, rfl, hchannel, hhanded, hcounted, h⟩)
        · exact absurd h (by simp only [reduceCtorEq, not_false_eq_true])
    · exact absurd h (by simp only [reduceCtorEq, not_false_eq_true])
  · next e hcount hhead =>
      rcases Option.map_eq_some_iff.mp h with ⟨channel, hchannel, rfl⟩
      exact Or.inl ⟨e, channel, rfl, fun he => hhead he, fun he => absurd he hcount, hchannel, rfl⟩
  · exact absurd h (by simp only [reduceCtorEq, not_false_eq_true])
  · next l' hmessage =>
      rcases Option.map_eq_some_iff.mp h with ⟨d, hd, rfl⟩
      exact Or.inr (Or.inr (Or.inl ⟨l', d, rfl, fun c hc => hmessage c hc, hd, rfl⟩))
  · exact absurd h (by simp only [reduceCtorEq, not_false_eq_true])
  · next l' hmessage =>
      rcases Option.map_eq_some_iff.mp h with ⟨c, hc, rfl⟩
      exact Or.inr (Or.inr (Or.inr ⟨l', c, rfl, fun m hm => hmessage m hm, hc, rfl⟩))

/-- The components have been called as the messages handed over so far ask, the
    queued messages lie inside their batches, and a count is seen only by a
    thread that runs no function. -/
structure Routed (cap : UInt32) (s : Service) : Prop where
  delivering : Delivering cap s.channel
  whole : ∀ p ∈ s.channel.queue.queue, p.Whole
  calls : ∀ c, s.Calls c (commandsOf c (handedMsgs s.channel))
  idle : s.channel.counted = true → s.Idle

theorem routed_start (cap : UInt32) (s : Service) (h : ServiceStart cap s) : Routed cap s where
  delivering := delivering_start cap s.channel h.channel
  whole := by
    rw [h.channel.queue]
    exact fun p hp => absurd hp List.not_mem_nil
  calls := by
    have hnone : handedMsgs s.channel = [] := by
      rw [handedMsgs, h.channel.handed, List.map_nil]
    rw [hnone]
    intro c
    cases c with
    | deviceControl => exact congrArg Monitor.State.messages h.device
    | systemLogControl => exact congrArg Collection.State.messages h.systemLog
    | fileScanControl => exact h.fileScan
    | fireWallControl => exact h.fireWall
    | clipboardControl => exact h.clipboard
  idle := by
    rw [h.channel.counted]
    exact fun hc => absurd hc Bool.false_ne_true

/-- A component whose messages are the same has been called for the same. -/
theorem Service.Calls.congr {s t : Service} {c : Component} {fs : List ControlFunction}
    (h : s.Calls c fs) (hdevice : t.device.messages = s.device.messages)
    (hlog : t.systemLog.messages = s.systemLog.messages) (hscan : t.fileScan = s.fileScan)
    (hwall : t.fireWall = s.fireWall) (hclip : t.clipboard = s.clipboard) : t.Calls c fs := by
  cases c with
  | deviceControl => exact hdevice.trans h
  | systemLogControl => exact hlog.trans h
  | fileScanControl => exact hscan.trans h
  | fireWallControl => exact hwall.trans h
  | clipboardControl => exact hclip.trans h

/-- Every admissible step keeps the routing. -/
theorem routed_step (cap : UInt32) (s : Service) (l : Label) (t : Service) (h : Routed cap s)
    (hok : ServiceAdmissible s l) (hstep : serviceStep s l = some t) : Routed cap t := by
  rcases serviceStep_cases s t l hstep with ⟨e, channel, rfl, he, hidle, hchannel, rfl⟩ |
    ⟨p, channel, rfl, hchannel, hhanded, hcounted, hover⟩ | ⟨l', d, rfl, hl', hd, rfl⟩ |
    ⟨l', c, rfl, hl', hc, rfl⟩
  · -- The channel moves bytes or messages, and no component is called.
    rcases channel_cases s.channel channel e hchannel he with ⟨hhanded, hcount, -⟩
    refine ⟨delivering_step cap s.channel e channel h.delivering hok hchannel,
      inside_step cap s.channel channel e h.delivering h.whole hchannel, fun c => ?_,
      fun hc => ?_⟩
    · rw [handedMsgs, hhanded]
      exact (h.calls c).congr rfl rfl rfl rfl rfl
    · rcases hcount with hcount | hcount
      · exact hidle hcount
      · exact h.idle (hcount.symm.trans hc)
  · rcases handOver_calls _ t p hover with ⟨hsame, hcalls⟩
    refine ⟨hsame ▸ delivering_step cap s.channel .getHead channel h.delivering hok hchannel,
      hsame ▸ inside_step cap s.channel channel .getHead h.delivering h.whole hchannel,
      fun c => ?_, fun hc => ?_⟩
    · -- The message handed over is the last one, and what it asks for was called last.
      have hmsgs : commandsOf c (handedMsgs t.channel)
          = commandsOf c (handedMsgs s.channel) ++ (commandOf c p.msg).toList := by
        rw [hsame, handedMsgs, hhanded, List.map_append, commandsOf, List.filterMap_append]
        refine congrArg _ ?_
        rw [List.map_cons, List.map_nil, List.filterMap_cons]
        cases commandOf c p.msg <;> rfl
      rw [hmsgs]
      exact hcalls c _ ((h.calls c).congr rfl rfl rfl rfl rfl)
    · rw [hsame, hcounted] at hc
      exact absurd hc Bool.false_ne_true
  · -- A step of a component leaves what it was asked for.
    rcases device_frame s.device d l' hd hl' with ⟨hmsgs, hidle⟩
    exact ⟨h.delivering, h.whole, fun c => (h.calls c).congr hmsgs rfl rfl rfl rfl,
      fun hc => ⟨hidle (h.idle hc).1, (h.idle hc).2⟩⟩
  · rcases systemLog_frame s.systemLog c l' hc hl' with ⟨hmsgs, hidle⟩
    exact ⟨h.delivering, h.whole, fun c => (h.calls c).congr rfl hmsgs rfl rfl rfl,
      fun hc => ⟨(h.idle hc).1, hidle (h.idle hc).2⟩⟩

/-! ### Runs -/

theorem routed_run (cap : UInt32) (s₀ s : Service) (ls : List Label) (h0 : ServiceStart cap s₀)
    (hok : Machine.StepsMeet serviceStep ServiceAdmissible s₀ ls)
    (hrun : Machine.run serviceStep s₀ ls = some s) : Routed cap s :=
  Machine.run_invariant_of_stepsMeet serviceStep ServiceAdmissible (Routed cap)
    (routed_step cap) s₀ s ls (routed_start cap s₀ h0) hok hrun

/-- A run of the service is a run of the device component's own machine. -/
theorem device_run (s₀ s : Service) (ls : List Label)
    (hrun : Machine.run serviceStep s₀ ls = some s) :
    ∃ ms, Machine.run Monitor.step s₀.device ms = some s.device ∧
      (Machine.StepsMeet serviceStep DeviceCallsSucceed s₀ ls →
        Machine.StepsMeet Monitor.step Monitor.CallsSucceed s₀.device ms) := by
  refine Machine.run_part serviceStep Monitor.step Service.device DeviceCallsSucceed
    Monitor.CallsSucceed (fun s l t hstep => ?_) s₀ s ls hrun
  have hone : ∀ m : Monitor.Label, Monitor.step s.device m = some t.device →
      Machine.run Monitor.step s.device [m] = some t.device :=
    fun m hm => (Machine.run_cons _ _ _ m []).mpr ⟨t.device, hm, rfl⟩
  rcases serviceStep_cases s t l hstep with ⟨e, channel, rfl, -, -, -, rfl⟩ |
    ⟨p, channel, rfl, -, -, -, hover⟩ | ⟨l', d, rfl, -, hd, rfl⟩ | ⟨l', c, rfl, -, -, rfl⟩
  · exact ⟨[], rfl, fun _ => trivial⟩
  · rcases handOver_cases _ t p hover with ⟨rfl, -⟩ | ⟨c, f, hcall, -, -⟩
    · exact ⟨[], rfl, fun _ => trivial⟩
    · rcases (call_parts _ t c f hcall).1 with hsame | ⟨m, hm⟩
      · exact ⟨[], congrArg some hsame.symm, fun _ => trivial⟩
      · exact ⟨[.message m], hone _ hm, fun _ => ⟨trivial, fun _ _ => trivial⟩⟩
  · exact ⟨[l'], hone l' hd, fun hsucceed => ⟨hsucceed, fun _ _ => trivial⟩⟩
  · exact ⟨[], rfl, fun _ => trivial⟩

/-- And one of the System log component's. -/
theorem systemLog_run (s₀ s : Service) (ls : List Label)
    (hrun : Machine.run serviceStep s₀ ls = some s) :
    ∃ ms, Machine.run Collection.step s₀.systemLog ms = some s.systemLog := by
  refine (Machine.run_part serviceStep Collection.step Service.systemLog (fun _ _ => True)
    (fun _ _ => True) (fun s l t hstep => ?_) s₀ s ls hrun).imp (fun ms hms => hms.1)
  have hmeet : ∀ ms, Machine.StepsMeet Collection.step (fun _ _ => True) s.systemLog ms :=
    fun ms => Machine.stepsMeet_of_forall _ _ _ ms (fun _ _ _ => trivial)
  have hone : ∀ m : Collection.Label, Collection.step s.systemLog m = some t.systemLog →
      Machine.run Collection.step s.systemLog [m] = some t.systemLog :=
    fun m hm => (Machine.run_cons _ _ _ m []).mpr ⟨t.systemLog, hm, rfl⟩
  rcases serviceStep_cases s t l hstep with ⟨e, channel, rfl, -, -, -, rfl⟩ |
    ⟨p, channel, rfl, -, -, -, hover⟩ | ⟨l', d, rfl, -, -, rfl⟩ | ⟨l', c, rfl, -, hc, rfl⟩
  · exact ⟨[], rfl, fun _ => hmeet []⟩
  · rcases handOver_cases _ t p hover with ⟨rfl, -⟩ | ⟨c, f, hcall, -, -⟩
    · exact ⟨[], rfl, fun _ => hmeet []⟩
    · rcases (call_parts _ t c f hcall).2 with hsame | ⟨m, hm⟩
      · exact ⟨[], congrArg some hsame.symm, fun _ => hmeet []⟩
      · exact ⟨[.message m], hone _ hm, fun _ => hmeet _⟩
  · exact ⟨[], rfl, fun _ => hmeet []⟩
  · exact ⟨[l'], hone l' hc, fun _ => hmeet _⟩

/-- In every run: the messages handed over are the first of the accepted ones,
    each component has been called for what those of its type ask, in their
    order and for nothing else, the two components with steps of their own are
    where a run of their machine leads, and what the dispatcher has counted it
    can hand over. -/
theorem service_routes (cap : UInt32) (s₀ s : Service) (ls : List Label)
    (h0 : ServiceStart cap s₀) (hok : Machine.StepsMeet serviceStep ServiceAdmissible s₀ ls)
    (hrun : Machine.run serviceStep s₀ ls = some s) :
    (∃ rest, s.channel.accepted = handedMsgs s.channel ++ rest) ∧
      (∀ c, s.Calls c (commandsOf c (handedMsgs s.channel))) ∧
      (∃ ms, Machine.run Monitor.step Monitor.start ms = some s.device) ∧
      (∃ ms, Machine.run Collection.step Collection.start ms = some s.systemLog) ∧
      (s.channel.counted = true → ∃ t, serviceStep s (.ipc .getHead) = some t) := by
  have h := routed_run cap s₀ s ls h0 hok hrun
  refine ⟨⟨queuedMsgs s.channel ++ (unsplitMsgs s.channel ++ pendingMsgs s.channel), ?_⟩, h.calls,
    ?_, ?_, fun hcounted => ?_⟩
  · rw [← h.delivering.places, List.append_assoc, List.append_assoc]
  · rcases device_run s₀ s ls hrun with ⟨ms, hms, -⟩
    exact ⟨ms, h0.device ▸ hms⟩
  · rcases systemLog_run s₀ s ls hrun with ⟨ms, hms⟩
    exact ⟨ms, h0.systemLog ▸ hms⟩
  · cases hq : s.channel.queue.queue with
    | nil => exact absurd hq (h.delivering.counted hcounted)
    | cons p rest =>
        have hidle := h.idle hcounted
        have hstep : ∃ channel, step s.channel .getHead = some channel := by
          simp only [step, stepGetHead, hcounted, if_true, CWLMetaDataQueue.getHead, hq]
          exact ⟨_, rfl⟩
        rcases hstep with ⟨channel, hchannel⟩
        simp only [serviceStep, CWLMetaDataQueue.getHead, hq, hchannel, if_pos hidle]
        exact handOver_total _ p (h.whole p (hq ▸ List.mem_cons_self)) hidle

/-- A service that nothing was sent to, with containers of capacity 64. -/
def smallService : Service :=
  { channel := { smallChannel with
      mem := List.replicate 68 0, sender := fun _ => openContainer 64
      receiver := openContainer 64 }
    device := Monitor.start
    systemLog := Collection.start
    fileScan := []
    fireWall := []
    clipboard := [] }

theorem serviceStart_small : ServiceStart 64 smallService where
  channel := ⟨⟨rfl, by decide⟩, by decide, fun _ => ⟨rfl, rfl⟩, ⟨rfl, rfl⟩, rfl, rfl, rfl, rfl, rfl⟩
  device := rfl
  systemLog := rfl
  fileScan := rfl
  fireWall := rfl
  clipboard := rfl

/-- Three messages: open the devices, a code that nobody knows, and scan. Each
    is handed over when the one before has been dealt with. -/
def threeMessages : List Label :=
  [.ipc (.send 0 1 1 0 none), .ipc (.send 1 1 7 0 none), .ipc (.send 0 3 1 2 (some [5, 6])),
    .ipc .readData, .ipc .split, .ipc .split, .ipc .split, .ipc .split, .ipc .getCount,
    .ipc .getHead, .device (.dispatch 0), .device (.dispatch 8), .device (.thread 0 0),
    .ipc .getCount, .ipc .getHead, .ipc .getCount, .ipc .getHead]

theorem admissible_threeMessages :
    Machine.StepsMeet serviceStep ServiceAdmissible smallService threeMessages := by
  decide +kernel

theorem service_routes_threeMessages :
    ∃ s, Machine.run serviceStep smallService threeMessages = some s ∧
      handedMsgs s.channel = s.channel.accepted ∧ s.Calls .fileScanControl [.enableFunction] ∧
      ∃ ms, Machine.run Monitor.step Monitor.start ms = some s.device := by
  have hrun : (Machine.run serviceStep smallService threeMessages).any (fun s =>
      handedMsgs s.channel == s.channel.accepted &&
        commandsOf .fileScanControl (handedMsgs s.channel) == [.enableFunction]) = true := by
    decide +kernel
  rcases hs : Machine.run serviceStep smallService threeMessages with _ | s
  · rw [hs] at hrun
    exact absurd hrun (by simp only [Option.any_none, Bool.false_eq_true, not_false_eq_true])
  · rw [hs] at hrun
    simp only [Option.any_some, Bool.and_eq_true, beq_iff_eq] at hrun
    rcases service_routes 64 smallService s threeMessages serviceStart_small
      admissible_threeMessages hs with ⟨-, hcalls, hdevice, -⟩
    exact ⟨s, rfl, hrun.1, hrun.2 ▸ hcalls .fileScanControl, hdevice⟩

/-! ### When nothing is under way -/

/-- Nothing is in the buffer, in a batch or in the queue, no function is being
    run, and the monitor threads have reacted. -/
structure Quiet (s : Service) : Prop where
  batch : s.channel.batch = none
  queue : s.channel.queue.queue = []
  pending : pendingMsgs s.channel = []
  device : Monitor.Settled s.device
  systemLog : s.systemLog.dispatcher = .idle

theorem deviceCommand_injective : Function.Injective deviceCommand := by
  intro f g h
  cases f <;> cases g <;> first | rfl | exact Monitor.Command.noConfusion h

theorem logCommand_injective : Function.Injective logCommand := by
  intro f g h
  cases f <;> cases g <;> first | rfl | exact Collection.Command.noConfusion h

/-- When nothing is under way, every message that was accepted has had its
    effect. Never more than one monitor thread is in its loop. None is when the
    senders have asked for an end, at any time and with whatever after it, and
    exactly one is when they have asked for monitoring and never for an end. A
    reader of the System log is told to leave when they asked for that, and
    there is none when they never asked for one. -/
theorem service_settles (cap : UInt32) (s₀ s : Service) (ls : List Label)
    (h0 : ServiceStart cap s₀) (hok : Machine.StepsMeet serviceStep ServiceAdmissible s₀ ls)
    (hrun : Machine.run serviceStep s₀ ls = some s) (hquiet : Quiet s) :
    (∀ c, s.Calls c (commandsOf c s.channel.accepted)) ∧
      s.device.threads.countP Monitor.ThreadPc.inside ≤ 1 ∧
      (.disableFunction ∈ commandsOf .deviceControl s.channel.accepted →
        s.device.threads.countP Monitor.ThreadPc.inside = 0) ∧
      (Machine.StepsMeet serviceStep DeviceCallsSucceed s₀ ls →
        .enableFunction ∈ commandsOf .deviceControl s.channel.accepted →
        .disableFunction ∉ commandsOf .deviceControl s.channel.accepted →
          s.device.threads.countP Monitor.ThreadPc.inside = 1) ∧
      (.disableFunction ∈ commandsOf .systemLogControl s.channel.accepted →
        s.systemLog.m_ReadSystemEventThreadExit = true) ∧
      (.enableFunction ∉ commandsOf .systemLogControl s.channel.accepted →
        s.systemLog.threads = []) := by
  have h := routed_run cap s₀ s ls h0 hok hrun
  -- Nothing is left anywhere, so all that was accepted has been handed over.
  have hall : handedMsgs s.channel = s.channel.accepted := by
    have hplaces := h.delivering.places
    rwa [queuedMsgs, hquiet.queue, List.map_nil, unsplitMsgs, hquiet.batch, hquiet.pending,
      List.append_nil, List.append_nil, List.append_nil] at hplaces
  have hcalls : ∀ c, s.Calls c (commandsOf c s.channel.accepted) := hall ▸ h.calls
  have hmemDevice : ∀ f, deviceCommand f ∈ s.device.messages ↔
      f ∈ commandsOf .deviceControl s.channel.accepted := by
    intro f
    rw [show s.device.messages = _ from hcalls .deviceControl]
    exact List.mem_map_of_injective deviceCommand_injective
  have hmemLog : ∀ f, logCommand f ∈ s.systemLog.messages ↔
      f ∈ commandsOf .systemLogControl s.channel.accepted := by
    intro f
    rw [show s.systemLog.messages = _ from hcalls .systemLogControl]
    exact List.mem_map_of_injective logCommand_injective
  rcases device_run s₀ s ls hrun with ⟨ms, hms, hsucceed⟩
  rcases systemLog_run s₀ s ls hrun with ⟨ns, hns⟩
  rw [h0.device] at hms hsucceed
  rw [h0.systemLog] at hns
  have hinv := Monitor.inv_run s.device ms hms
  have hlog := Collection.inv_run s.systemLog ns hns
  refine ⟨hcalls, hinv.inside_le, fun hclose => ?_, fun hcallsSucceed hopen hclose => ?_,
    fun hclose => ?_, fun hopen => ?_⟩
  · exact hinv.inside_eq_zero hquiet.device ((hmemDevice .disableFunction).mpr hclose)
  · have hnone : Monitor.Command.closeAll ∉ s.device.messages :=
      fun hmem => hclose ((hmemDevice .disableFunction).mp hmem)
    exact (Monitor.open_run s.device ms hms (hsucceed hcallsSucceed) hnone).inside_eq_one hinv
      hquiet.device ((hmemDevice .enableFunction).mpr hopen)
  · refine hlog.closed ?_
    rw [Collection.handled_of_idle s.systemLog hquiet.systemLog]
    exact (hmemLog .disableFunction).mpr hclose
  · refine List.eq_nil_iff_forall_not_mem.mpr (fun th hth => hopen ?_)
    exact (hmemLog .enableFunction).mp (hlog.started th hth)

/-- The devices are opened, and the monitor thread comes to its loop. -/
def openDevices : List Label :=
  [.ipc (.send 0 1 1 0 none), .ipc .readData, .ipc .split, .ipc .split, .ipc .getCount,
    .ipc .getHead, .device (.dispatch 0), .device (.dispatch 1), .device (.thread 0 0),
    .device (.thread 0 2), .device (.thread 0 0), .device (.thread 0 3), .device (.thread 0 0),
    .device (.thread 0 4), .device (.thread 0 0)]

instance (s : Service) (l : Label) : Decidable (DeviceCallsSucceed s l) :=
  match l with
  | .device l => inferInstanceAs (Decidable (Monitor.CallsSucceed s.device l))
  | .ipc _ | .systemLog _ => isTrue trivial

theorem service_settles_opened :
    ∃ s, Machine.run serviceStep smallService openDevices = some s ∧
      s.device.threads.countP Monitor.ThreadPc.inside = 1 := by
  have hrun : (Machine.run serviceStep smallService openDevices).any (fun s =>
      s.channel.batch == none && s.channel.queue.queue == [] && pendingMsgs s.channel == [] &&
        decide (Monitor.Settled s.device) && s.systemLog.dispatcher == .idle &&
        commandsOf .deviceControl s.channel.accepted == [.enableFunction]) = true := by
    decide +kernel
  rcases hs : Machine.run serviceStep smallService openDevices with _ | s
  · rw [hs] at hrun
    exact absurd hrun (by simp only [Option.any_none, Bool.false_eq_true, not_false_eq_true])
  · rw [hs] at hrun
    simp only [Option.any_some, Bool.and_eq_true, beq_iff_eq, decide_eq_true_eq] at hrun
    rcases hrun with ⟨⟨⟨⟨⟨hbatch, hqueue⟩, hpending⟩, hsettled⟩, hidle⟩, hasked⟩
    have h := service_settles 64 smallService s openDevices serviceStart_small (by decide +kernel)
      hs ⟨hbatch, hqueue, hpending, hsettled, hidle⟩
    rw [hasked] at h
    exact ⟨s, rfl, h.2.2.2.1 (by decide +kernel) (by decide) (by decide)⟩

end Ipc

end Defender
