import EncryptedInference.Proofs.Host.Ownership
import Mathlib.Data.List.Nodup
import Mathlib.Data.List.Range

/-!
# The log of a run

The log lists the requests that are taken on in a run, each with the visit on which it came.  It has
the names in the order in which they are given (`SharedServer.IsLog`), so no request stands in it
twice, and whatever is in the table or in the hands of a visit stands in it (`SharedServer.Logged`).
Each move keeps that with the log grown by what the move takes on (`Logged.step`).
-/

namespace EncryptedInference

/-- The request that an occurrence takes on, with the visit on which it came. -/
def Occurrence.taken (e : Occurrence) : List (Nat × String) :=
  match e.move with
  | .message i _ => ServerMessage.taken i e.reply
  | _ => []

namespace SharedServer

/-- The requests that are taken on in a run, in order. -/
def taken (hosts : HostByJob) (h : SharedServer) (moves : List Move) : List (Nat × String) :=
  (h.trace hosts moves).flatMap Occurrence.taken

theorem taken_append (hosts : HostByJob) (h : SharedServer) (moves moves' : List Move) :
    h.taken hosts (moves ++ moves') =
      h.taken hosts moves ++ (h.after hosts moves).taken hosts moves' := by
  rw [taken, trace_append, List.flatMap_append]
  rfl

/-! ## Logs -/

/-- The names stand in the order in which they are given. -/
def IsLog (hosts : HostByJob) (log : List (Nat × String)) : Prop :=
  log.map Prod.snd = (List.range log.length).map hosts.requestName

namespace IsLog

variable {hosts : HostByJob} {log : List (Nat × String)}

theorem nil : IsLog hosts [] := rfl

theorem append_next (hlog : IsLog hosts log) (i : Nat) :
    IsLog hosts (log ++ [(i, hosts.requestName log.length)]) := by
  unfold IsLog at hlog ⊢
  rw [List.map_append, hlog, List.length_append, List.length_singleton, List.range_succ,
    List.map_append]
  rfl

theorem nodup (hlog : IsLog hosts log) (hnames : Function.Injective hosts.requestName) :
    (log.map Prod.snd).Nodup := by
  rw [hlog]
  exact List.nodup_range.map hnames

/-- A request comes on one visit. -/
theorem once (hlog : IsLog hosts log) (hnames : Function.Injective hosts.requestName) {i j : Nat}
    {id : String} (hi : (i, id) ∈ log) (hj : (j, id) ∈ log) : i = j :=
  congrArg Prod.fst (List.inj_on_of_nodup_map (hlog.nodup hnames) hi hj rfl)

theorem exists_mem (hlog : IsLog hosts log) {n : Nat} (hn : n < log.length) :
    ∃ i, (i, hosts.requestName n) ∈ log := by
  have hmem : hosts.requestName n ∈ log.map Prod.snd := by
    rw [hlog]
    exact List.mem_map_of_mem (List.mem_range.2 hn)
  obtain ⟨⟨i, id⟩, hid, rfl⟩ := List.mem_map.1 hmem
  exact ⟨i, hid⟩

end IsLog

/-! ## What a move takes on -/

/-- A move takes on a request under the next name, or none. -/
theorem taken_step_cases (hosts : HostByJob) (h : SharedServer) (move : Move) :
    (Occurrence.taken ⟨move, (h.step hosts move).1⟩ = [] ∧
      (h.step hosts move).2.server.accepted = h.server.accepted) ∨
    ∃ i, Occurrence.taken ⟨move, (h.step hosts move).1⟩ =
        [(i, hosts.requestName h.server.accepted)] ∧
      (h.step hosts move).2.server.accepted = h.server.accepted + 1 := by
  cases move with
  | message i m =>
    rcases h.message_cases hosts i m with ⟨-, heq⟩ | ⟨-, heq⟩ | ⟨v, reply, s, -, hm, heq⟩
    · simp only [step, heq]
      exact Or.inl ⟨rfl, trivial⟩
    · simp only [step, heq]
      exact Or.inl ⟨rfl, rfl⟩
    · simp only [step, heq, server_put]
      rcases hm.accepted_or_kept with ⟨r, rfl, rfl⟩ | ⟨hreply, haccepted, -⟩
      · exact Or.inr ⟨i, rfl, rfl⟩
      · left
        refine ⟨?_, haccepted⟩
        cases reply with
        | accepted id => exact absurd rfl (hreply id)
        | _ => rfl
  | leave i => exact Or.inl ⟨rfl, rfl⟩
  | start id => exact Or.inl ⟨rfl, Server.accepted_updateJob ..⟩
  | finish id task => exact Or.inl ⟨rfl, Server.accepted_updateJob ..⟩

/-- A visit comes to own what its reply takes on, and nothing else. -/
theorem owned_step (hosts : HostByJob) (h : SharedServer) (move : Move) {k : Nat} {id : String}
    (hid : id ∈ (h.step hosts move).2.owned k) :
    id ∈ h.owned k ∨ (k, id) ∈ Occurrence.taken ⟨move, (h.step hosts move).1⟩ := by
  have hleave : ∀ i, id ∈ (h.leave i).owned k → id ∈ h.owned k := by
    intro i hleft
    rw [owned_leave] at hleft
    split_ifs at hleft
    · cases hleft
    · exact hleft
  cases move with
  | message i m =>
    rcases h.message_cases hosts i m with ⟨-, heq⟩ | ⟨-, heq⟩ | ⟨v, reply, s, hv, -, heq⟩
    · simp only [step, heq] at hid
      exact Or.inl hid
    · simp only [step, heq] at hid
      exact Or.inl (hleave i hid)
    · simp only [step, heq] at hid ⊢
      rcases (mem_owned_noted hv).1 hid with ⟨rfl, rfl⟩ | ⟨hold, -⟩
      · exact Or.inr List.mem_cons_self
      · exact Or.inl hold
  | leave i => exact Or.inl (hleave i hid)
  | start other => exact Or.inl hid
  | finish other task => exact Or.inl hid

/-! ## Servers with a log -/

/-- The visits are in order, the log has all the names that were given, and the visits own only what
the log says came on them. -/
structure Logged (hosts : HostByJob) (log : List (Nat × String)) (h : SharedServer) : Prop where
  orderly : Orderly hosts h
  isLog : IsLog hosts log
  accepted : h.server.accepted = log.length
  owned : ∀ k, ∀ id ∈ h.owned k, (k, id) ∈ log

namespace Logged

variable {hosts : HostByJob} {log : List (Nat × String)} {h : SharedServer}

theorem initial : Logged hosts [] .initial where
  orderly := .initial
  isLog := .nil
  accepted := rfl
  owned _ _ hid := by cases hid

/-- What does not stand in the log has no job. -/
theorem absent (hl : Logged hosts log h) {id : String} (hid : ∀ k, (k, id) ∉ log) :
    h.server.jobs.get? id = none := by
  apply hl.orderly.absent
  rintro ⟨n, hn, rfl⟩
  obtain ⟨k, hk⟩ := hl.isLog.exists_mem (hl.accepted ▸ hn)
  exact hid k hk

theorem step (hl : Logged hosts log h) (hnames : Function.Injective hosts.requestName)
    (move : Move) :
    Logged hosts (log ++ Occurrence.taken ⟨move, (h.step hosts move).1⟩) (h.step hosts move).2 := by
  have howned : ∀ k, ∀ id ∈ (h.step hosts move).2.owned k,
      (k, id) ∈ log ++ Occurrence.taken ⟨move, (h.step hosts move).1⟩ := by
    intro k id hid
    rcases h.owned_step hosts move hid with hold | hnew
    · exact List.mem_append_left _ (hl.owned k id hold)
    · exact List.mem_append_right _ hnew
  have horderly := hl.orderly.step hnames move
  rcases h.taken_step_cases hosts move with ⟨htaken, haccepted⟩ | ⟨i, htaken, haccepted⟩
  · rw [htaken, List.append_nil] at howned ⊢
    exact ⟨horderly, hl.isLog, haccepted.trans hl.accepted, howned⟩
  · rw [htaken, hl.accepted] at howned ⊢
    refine ⟨horderly, hl.isLog.append_next i, ?_, howned⟩
    rw [haccepted, hl.accepted, List.length_append, List.length_singleton]

theorem after (hl : Logged hosts log h) (hnames : Function.Injective hosts.requestName)
    (moves : List Move) : Logged hosts (log ++ h.taken hosts moves) (h.after hosts moves) := by
  induction moves generalizing h log with
  | nil => exact (List.append_nil log).symm ▸ hl
  | cons move moves ih =>
    have hrest := ih (hl.step hnames move)
    rwa [List.append_assoc] at hrest

end Logged

end SharedServer

end EncryptedInference
