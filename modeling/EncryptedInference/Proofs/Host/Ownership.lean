import EncryptedInference.Proofs.Host.SharedServer

/-!
# Who owns a job

A visit notes what it owns from the replies it gets, and the table knows nothing of owners.  Given a
list of which request was taken on for which visit, every job in the table is owned by the visit it
was taken on for, and by no other (`SharedServer.Attributed`).  This is kept by every message, with
the list grown by the request that the reply takes on (`Attributed.message`), by the end of visits
and by tasks.  What a visit still owns of jobs that are gone does not matter.
-/

namespace EncryptedInference

/-- The request that a reply to a visit takes on, if it does. -/
def ServerMessage.taken (i : Nat) : Option ServerMessage → List (Nat × String)
  | some (.accepted id) => [(i, id)]
  | _ => []

namespace SharedServer

/-- The owners of the jobs in the table are the visits that their requests were taken on for;
`taken` lists those requests, of which none was taken on twice. -/
structure Attributed (hosts : HostByJob) (taken : List (Nat × String)) (h : SharedServer) :
    Prop where
  owned_iff : ∀ id, h.server.jobs.get? id ≠ none → ∀ i, id ∈ h.owned i ↔ (i, id) ∈ taken
  exists_taken : ∀ id, h.server.jobs.get? id ≠ none → ∃ i, (i, id) ∈ taken
  given : ∀ p ∈ taken, Given hosts h.server p.2
  once : ∀ i j id, (i, id) ∈ taken → (j, id) ∈ taken → i = j

namespace Attributed

variable {hosts : HostByJob} {taken : List (Nat × String)} {h : SharedServer}

theorem initial : Attributed hosts [] .initial where
  owned_iff _ hid := absurd rfl hid
  exists_taken _ hid := absurd rfl hid
  given := List.forall_mem_nil _
  once _ _ _ hi := by cases hi

/-- Jobs may go, and so may the ownership of jobs that are gone. -/
theorem of_subset (ha : Attributed hosts taken h) {h' : SharedServer}
    (haccepted : h'.server.accepted = h.server.accepted)
    (hjobs : ∀ id, h'.server.jobs.get? id ≠ none → h.server.jobs.get? id ≠ none)
    (howned : ∀ id, h'.server.jobs.get? id ≠ none → ∀ i, id ∈ h'.owned i ↔ id ∈ h.owned i) :
    Attributed hosts taken h' where
  owned_iff id hid i := (howned id hid i).trans (ha.owned_iff id (hjobs id hid) i)
  exists_taken id hid := ha.exists_taken id (hjobs id hid)
  given p hp := (ha.given p hp).mono (Nat.le_of_eq haccepted.symm)
  once := ha.once

theorem leave (ha : Attributed hosts taken h) (i : Nat) : Attributed hosts taken (h.leave i) := by
  have haccepted : (h.leave i).server.accepted = h.server.accepted := rfl
  have hkept : ∀ id, (h.leave i).server.jobs.get? id ≠ none →
      id ∉ h.owned i ∧ h.server.jobs.get? id ≠ none := by
    intro id hid
    rw [SharedServer.leave, server_put, Server.get?_evict] at hid
    by_cases hmem : id ∈ h.owned i
    · rw [if_pos hmem] at hid
      exact absurd rfl hid
    · rw [if_neg hmem] at hid
      exact ⟨hmem, hid⟩
  refine ha.of_subset haccepted (fun id hid => (hkept id hid).2) ?_
  intro id hid j
  rw [owned_leave]
  by_cases hij : j = i
  · rw [if_pos hij, hij]
    simpa using (hkept id hid).1
  · rw [if_neg hij]

theorem updateJob (ha : Attributed hosts taken h) (id : String) (f : Job → Job) :
    Attributed hosts taken { h with server := h.server.updateJob id f } := by
  refine ha.of_subset (Server.accepted_updateJob ..) ?_ fun _ _ _ => Iff.rfl
  intro other
  exact mt (Server.absent_updateJob · id f)

/-- A request that is taken on goes to the visit that sent it. -/
theorem accept (ha : Attributed hosts taken h) (ho : Orderly hosts h)
    (hnames : Function.Injective hosts.requestName) {i : Nat} {v : Visit}
    (hv : h.visits i = some v) (r : Request) :
    Attributed hosts (taken ++ [(i, hosts.requestName h.server.accepted)])
      (h.put i (some (v.noted (.accepted (hosts.requestName h.server.accepted))))
        (h.server.accept hosts.toHost r)) := by
  have hnext := not_given_next hnames h.server
  have hfresh : ∀ j, (j, hosts.requestName h.server.accepted) ∉ taken := fun j hj =>
    hnext (ha.given _ hj)
  have hjobs : ∀ id, id ≠ hosts.requestName h.server.accepted →
      (h.server.accept hosts.toHost r).jobs.get? id = h.server.jobs.get? id := by
    intro id hid
    rw [Server.get?_accept, if_neg hid]
  constructor
  · intro id hid j
    rw [ho.mem_owned_accept hnames hv, List.mem_append, List.mem_singleton, Prod.mk.injEq]
    by_cases heq : id = hosts.requestName h.server.accepted
    · simp [heq, hfresh]
    · rw [server_put, hjobs id heq] at hid
      simp [heq, ha.owned_iff id hid j]
  · intro id hid
    by_cases heq : id = hosts.requestName h.server.accepted
    · exact ⟨i, by simp [heq]⟩
    · rw [server_put, hjobs id heq] at hid
      obtain ⟨j, hj⟩ := ha.exists_taken id hid
      exact ⟨j, List.mem_append_left _ hj⟩
  · intro p hp
    rcases List.mem_append.1 hp with hp | hp
    · exact (ha.given p hp).mono (Nat.le_succ _)
    · rw [List.mem_singleton.1 hp]
      exact ⟨_, Nat.lt_succ_self _, rfl⟩
  · intro j k id hj hk
    by_cases heq : id = hosts.requestName h.server.accepted
    · subst heq
      simp [hfresh] at hj hk
      rw [hj, hk]
    · simp [heq] at hj hk
      exact ha.once j k id hj hk

/-- Any other reply leaves the owners of the jobs that are still there as they were. -/
theorem answer (ha : Attributed hosts taken h) {i : Nat} {v : Visit} (hv : h.visits i = some v)
    {reply : ServerMessage} (hreply : ∀ id, reply ≠ .accepted id) {s : Server}
    (haccepted : s.accepted = h.server.accepted)
    (hjobs : ∀ id, s.jobs.get? id ≠ none → h.server.jobs.get? id ≠ none)
    (hresult : ∀ r, reply = .result r → s.jobs.get? r.requestId = none) :
    Attributed hosts taken (h.put i (some (v.noted reply)) s) := by
  refine ha.of_subset haccepted hjobs ?_
  intro id hid j
  rw [mem_owned_noted hv]
  constructor
  · rintro (⟨-, htaken⟩ | ⟨hold, -⟩)
    · exact absurd htaken (hreply id)
    · exact hold
  · intro hold
    refine Or.inr ⟨hold, ?_⟩
    rintro - r hr rfl
    exact hid (hresult r hr)

theorem handled (ha : Attributed hosts taken h) (ho : Orderly hosts h)
    (hnames : Function.Injective hosts.requestName) {i : Nat} {v : Visit}
    (hv : h.visits i = some v) {m : ClientMessage} {reply : ServerMessage} {s : Server}
    (hm : Server.Handled hosts.toHost h.server m (some reply) s) :
    Attributed hosts (taken ++ ServerMessage.taken i (some reply))
      (h.put i (some (v.noted reply)) s) := by
  rcases hm.accepted_or_kept with ⟨r, rfl, rfl⟩ | ⟨hreply, haccepted, hjobs, hresult⟩
  · exact ha.accept ho hnames hv r
  · have hnone : ServerMessage.taken i (some reply) = [] := by
      cases reply with
      | accepted id => exact absurd rfl (hreply id)
      | _ => rfl
    rw [hnone, List.append_nil]
    exact ha.answer hv hreply haccepted hjobs hresult

theorem message (ha : Attributed hosts taken h) (ho : Orderly hosts h)
    (hnames : Function.Injective hosts.requestName) (i : Nat) (m : ClientMessage) :
    Attributed hosts (taken ++ ServerMessage.taken i (h.message hosts i m).1)
      (h.message hosts i m).2 := by
  rcases h.message_cases hosts i m with ⟨-, heq⟩ | ⟨-, heq⟩ | ⟨v, reply, s, hv, hm, heq⟩
  · rw [heq]
    simpa [ServerMessage.taken] using ha
  · rw [heq]
    simpa [ServerMessage.taken] using ha.leave i
  · rw [heq]
    exact ha.handled ho hnames hv hm

end Attributed

end SharedServer

end EncryptedInference
