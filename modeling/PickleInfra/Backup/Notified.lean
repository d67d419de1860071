import PickleInfra.Backup.CapacityNotices
import PickleInfra.Backup.CoreNotices

/-!
# `Backup.Notified` — the status mailers after an ambiguous outcome

The capacity monitor and the core monitor keep one discipline (`Durable.Notices`): a sequence number is
claimed before it is sent, at most three times, and never again after a call that was not refused.
-/

namespace PickleInfra
namespace Backup

open Python Durable History

/-- What holds of the calls of a mailer about each sequence number, newest first: at most three, and a
    call that did not end in an explicit rejection is the last one. -/
structure SentOnce {D Q R : Type} (sequence : Q → Nat) (rejected : R → Prop) (hist : List (Event D Q R)) :
    Prop where
  bounded : ∀ n, (callEnds sequence n hist).length ≤ 3
  last : ∀ n later e earlier, callEnds sequence n hist = later ++ e :: earlier →
    ¬ Refused rejected e → later = []

theorem sentOnce_of_kept {D Q R : Type} {note : D → Note} {sequence : Q → Nat} {rejected : R → Prop}
    {w : World D Q R} (h : Kept note sequence rejected 3 w) : SentOnce sequence rejected w.hist where
  bounded := h.bounded
  last := by
    intro n later e earlier heq hnot
    have honce := h.once n
    rw [heq] at honce
    cases later with
    | nil => rfl
    | cons x later =>
        -- an end that has a newer one is among the tail
        have hmem : e ∈ (x :: later ++ e :: earlier).tail := by simp
        exact absurd hnot (honce e hmem)

/-- **At most once after an ambiguous outcome**: over any runs of either monitor, killed anywhere, each
    sequence number is sent at most three times and never again after a call that was not rejected; a
    write raises the sequence by one exactly if it changes the recorded status; a pending core report
    changes nothing of the notification; and what the capacity monitor saves, it accepts. -/
theorem sent_once_after_ambiguity :
    (∀ w, Capacity.Reachable w →
      SentOnce Capacity.Mailing.sequence (· = .rejected) w.hist ∧
        WritesRelated Capacity.StatusStep none w.hist ∧
        ∀ s, .wrote (some s) ∈ w.hist → Capacity.validateState s.toJson = .ok ()) ∧
    (∀ w, Core.Reachable (fun _ => True) w →
      SentOnce Core.Mailing.sequence (· = .notSent) w.hist ∧ WritesRelated Core.StatusStep none w.hist) ∧
    ∀ (x : Core.RunInput) (w w' : Core.CoreWorld) (r : Option Core.Result) (o : Core.Observation),
      Core.observed x (w.disk.getD {}).lastObservation = some o → o.report.status = .pending →
      Runs (Core.run x) w w' r → Core.noticeOf w'.disk = Core.noticeOf w.disk := by
  refine ⟨fun w h => ?_, fun w h => ⟨sentOnce_of_kept h.inv.kept, h.inv.saves⟩, ?_⟩
  · have hinv := h.inv
    refine ⟨sentOnce_of_kept hinv.kept, hinv.saves.mono fun h => h.1, fun s hs => ?_⟩
    obtain ⟨later, earlier, heq⟩ := List.append_of_mem hs
    exact Capacity.validateState_toJson ((hinv.saves later (some s) earlier heq).2 s rfl)
  · intro x w w' r o ho hpending hrun
    exact Core.run_pending ho hpending hrun

end Backup
end PickleInfra
