import OpenWorkloadScheduler.Foundations.NestedCalls

/-!
# Where a reply comes from

A call is handed on from server to server until one of them decides it, and the
reply goes back the same way.  A reply that the servers on the way pass back as it is
comes from the server that has decided the call, and it is not lost again.
-/

namespace OpenWorkloadScheduler.Foundations

universe u v w x

variable {Host : Type u} {Request : Type v} {Reply : Type w} {State : Type x}

/-! ## The reply of a call -/

namespace Stage

/-- The reply, as far as it has come back. -/
def reply : Stage Host Request Reply State → Option Reply
  | sent _ _ | executing _ _ _ => none
  | answered _ value | done value => some value

end Stage

/-- The call of a number has come to a reply. -/
def Situation.HasReply (situation : Situation Host Request Reply State) (index : Nat)
    (value : Reply) : Prop :=
  ∃ call, situation.calls[index]? = some call ∧ call.stage.reply = some value

section Replies

variable {situation : Situation Host Request Reply State} {index other : Nat}
  {call changed : Call Host Request Reply State} {value : Reply}

theorem hasReply_of_found (found : situation.calls[index]? = some call) :
    situation.HasReply index value ↔ call.stage.reply = some value := by
  simp [Situation.HasReply, found]

theorem hasReply_set_self (found : situation.calls[index]? = some call) :
    (situation.setCall index changed).HasReply index value ↔
      changed.stage.reply = some value := by
  have bound := (List.getElem?_eq_some_iff.mp found).1
  exact hasReply_of_found (List.getElem?_set_self bound)

theorem hasReply_set_ne (different : other ≠ index) :
    (situation.setCall other changed).HasReply index value ↔
      situation.HasReply index value := by
  rw [Situation.HasReply, Situation.setCall, List.getElem?_set_ne different, Situation.HasReply]

/-- A call that is yet to be sent has no reply. -/
theorem not_hasReply_of_length_le (later : situation.calls.length ≤ index) :
    ¬ situation.HasReply index value := by
  simp [Situation.HasReply, List.getElem?_eq_none later]

theorem reply_receive (service : Service Host Request Reply State)
    (call : Call Host Request Reply State) (given : Reply) :
    (call.receive service given).stage.reply = some given ∨
      ∃ host request,
        (call.receive service given).stage.reply = some (service.passes host request given) := by
  unfold Call.receive
  cases call.frames with
  | nil => exact Or.inl rfl
  | cons frame frames => exact Or.inr ⟨frame.1, frame.2, rfl⟩

end Replies

namespace Service

variable (service : Service Host Request Reply State)

/-- The reply is passed back as it is, and nothing else becomes it on the way. -/
def Transparent (value : Reply) : Prop :=
  ∀ host request other, service.passes host request other = value ↔ other = value

/-- A step that decides the call. -/
inductive Decides (before : Situation Host Request Reply State) (index : Nat) (value : Reply) :
    CallEvent Host Request → Prop where
  | refuse {call : Call Host Request Reply State} {host : Host} {request : Request}
      (found : before.calls[index]? = some call) (sent : call.stage = .sent host request)
      (absent : service.handling host request = none) (same : service.unreachable = value) :
      Decides before index value (.refuse index)
  | reply {call : Call Host Request Reply State} {host : Host} {request : Request}
      (found : before.calls[index]? = some call) (sent : call.stage = .sent host request)
      (handled : service.handling host request = some (.reply value)) :
      Decides before index value (.accept index)
  | finish {call : Call Host Request Reply State} {host : Host} {state : State}
      (found : before.calls[index]? = some call)
      (begun : call.stage = .executing host value state) :
      Decides before index value (.finish index)

variable {service}

theorem reply_receive_iff {call : Call Host Request Reply State} {value given : Reply}
    (transparent : service.Transparent value) :
    (call.receive service given).stage.reply = some value ↔ given = value := by
  cases reply_receive service call given with
  | inl same => rw [same, Option.some.injEq]
  | inr passed =>
      obtain ⟨host, request, passed⟩ := passed
      rw [passed, Option.some.injEq]
      exact transparent host request given

section Steps

variable [DecidableEq Host] {before after : Situation Host Request Reply State}
  {event : CallEvent Host Request} {index : Nat} {value : Reply}

/-- A reply stays. -/
theorem hasReply_of_step (transparent : service.Transparent value)
    (stepped : service.Step before event after) (has : before.HasReply index value) :
    after.HasReply index value := by
  have moved : ∀ {other : Nat} {call changed : Call Host Request Reply State},
      before.calls[other]? = some call →
        (call.stage.reply = some value → changed.stage.reply = some value) →
          (before.setCall other changed).HasReply index value := by
    intro other call changed found kept
    by_cases same : other = index
    · subst same
      exact (hasReply_set_self found).mpr (kept ((hasReply_of_found found).mp has))
    · exact (hasReply_set_ne same).mpr has
  cases stepped with
  | send host request closes =>
      obtain ⟨call, found, replied⟩ := has
      have bound := (List.getElem?_eq_some_iff.mp found).1
      exact ⟨call, (List.getElem?_append_left bound).trans found, replied⟩
  | refuse found sent absent => exact moved found (by simp [sent, Stage.reply])
  | reply found sent free handled => exact moved found (by simp [sent, Stage.reply])
  | execute found sent free handled => exact moved found (by simp [sent, Stage.reply])
  | forward found sent free handled => exact moved found (by simp [sent, Stage.reply])
  | finish found begun => exact moved found (by simp [begun, Stage.reply])
  | answer found decided sends =>
      apply moved found
      intro replied
      rw [decided] at replied
      exact (reply_receive_iff transparent).mpr (Option.some.inj replied)

/-- A reply that there had not been comes from the server that decides the call. -/
theorem decides_of_step (transparent : service.Transparent value)
    (stepped : service.Step before event after) (has : after.HasReply index value)
    (without : ¬ before.HasReply index value) : service.Decides before index value event := by
  have own : ∀ {other : Nat} {call changed : Call Host Request Reply State},
      before.calls[other]? = some call → (before.setCall other changed).HasReply index value →
        other = index ∧ changed.stage.reply = some value := by
    intro other call changed found has
    by_cases same : other = index
    · subst same
      exact ⟨rfl, (hasReply_set_self found).mp has⟩
    · exact absurd ((hasReply_set_ne same).mp has) without
  cases stepped with
  | send host request closes =>
      obtain ⟨call, found, replied⟩ := has
      cases Nat.lt_or_ge index before.calls.length with
      | inl bound =>
          rw [List.getElem?_append_left bound] at found
          exact absurd ⟨call, found, replied⟩ without
      | inr beyond =>
          rw [List.getElem?_append_right beyond] at found
          have member := List.mem_of_getElem? found
          rw [List.mem_singleton.mp member] at replied
          cases replied
  | refuse found sent absent =>
      obtain ⟨same, replied⟩ := own found has
      subst same
      exact .refuse found sent absent ((reply_receive_iff transparent).mp replied)
  | reply found sent free handled =>
      obtain ⟨same, replied⟩ := own found has
      subst same
      cases replied
      exact .reply found sent handled
  | execute found sent free handled | forward found sent free handled =>
      cases (own found has).2
  | finish found begun =>
      obtain ⟨same, replied⟩ := own found has
      subst same
      cases replied
      exact .finish found begun
  | answer found decided sends =>
      obtain ⟨same, replied⟩ := own found has
      subst same
      apply absurd _ without
      rw [hasReply_of_found found, decided]
      exact congrArg some ((reply_receive_iff transparent).mp replied)

end Steps

/-! ## The way of a call -/

/-- Every call has come to where it is by being handed on. -/
def Routes (service : Service Host Request Reply State)
    (situation : Situation Host Request Reply State) : Prop :=
  ∀ (index : Nat) (call : Call Host Request Reply State) host request,
    situation.calls[index]? = some call → call.stage = .sent host request →
      service.Path call.host call.request call.frames host request

theorem routes_of_set {situation : Situation Host Request Reply State} {index : Nat}
    {changed : Call Host Request Reply State} (routes : service.Routes situation)
    (own : ∀ host request, changed.stage = .sent host request →
      service.Path changed.host changed.request changed.frames host request) :
    service.Routes (situation.setCall index changed) := by
  intro other call host request found sent
  by_cases same : index = other
  · rw [Situation.setCall, same] at found
    cases List.mem_or_eq_of_mem_set (List.mem_of_getElem? found) with
    | inl old =>
        obtain ⟨place, oldFound⟩ := List.mem_iff_getElem?.mp old
        exact routes place call host request oldFound sent
    | inr new =>
        rw [new] at sent ⊢
        exact own host request sent
  · rw [Situation.setCall, List.getElem?_set_ne same] at found
    exact routes other call host request found sent

theorem not_sent_receive {call : Call Host Request Reply State} {given : Reply} {host : Host}
    {request : Request} : (call.receive service given).stage ≠ .sent host request := by
  unfold Call.receive
  cases call.frames <;> simp

theorem routes_of_step [DecidableEq Host] {before after : Situation Host Request Reply State}
    {event : CallEvent Host Request} (routes : service.Routes before)
    (stepped : service.Step before event after) : service.Routes after := by
  cases stepped with
  | send host request closes =>
      intro index call place asked found sent
      cases List.mem_append.mp (List.mem_of_getElem? found) with
      | inl old =>
          obtain ⟨other, oldFound⟩ := List.mem_iff_getElem?.mp old
          exact routes other call place asked oldFound sent
      | inr new =>
          rw [List.mem_singleton.mp new] at sent ⊢
          cases sent
          exact .here
  | refuse found sent absent =>
      exact routes_of_set routes fun _ _ sent => absurd sent not_sent_receive
  | reply found sent free handled | execute found sent free handled | finish found begun =>
      apply routes_of_set routes
      intro host request impossible
      cases impossible
  | forward found sent free handled =>
      apply routes_of_set routes
      intro host request handedOn
      cases handedOn
      exact .forward (routes _ _ _ _ found sent) handled
  | answer found decided sends =>
      exact routes_of_set routes fun _ _ sent => absurd sent not_sent_receive

end Service

end OpenWorkloadScheduler.Foundations
