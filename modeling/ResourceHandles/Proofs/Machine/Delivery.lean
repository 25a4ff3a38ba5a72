import ResourceHandles.Proofs.Machine.Writes

/-!
# Delivery

Whatever happens, also if writes are given up or connections are closed, what is received
at one end of a link was written at the other end, in the order in which it was written.
Something may be missing, but nothing is made up and nothing comes from elsewhere.
-/

namespace ResourceHandles

namespace Machine

variable {machine next : Machine} {log : List Record} {record : Record} {number : Nat}
  {id : EndId}

/-- Where nobody sits nothing waits to be sent. -/
theorem Transition.waiting_of_empty
    (htransition : machine.Transition record next) (hsound : machine.Sound)
    (hempty : ∀ number, endOf? machine.connections number ≠ some id) (log : List Record) :
    (next.ledger log id).waiting = [] := by
  apply bytesAt_eq_nil
  intro parcel hmem
  rw [htransition.endOf?_eq (htransition.load_lt hsound hmem)]
  exact hempty parcel.1

/-- What waits after a transition has waited before, or is written by it. -/
theorem Transition.waiting_sublist
    (htransition : machine.Transition record next) (hsound : machine.Sound)
    (log later : List Record) (id : EndId) :
    (next.ledger later id).waiting.Sublist
      ((machine.ledger log id).waiting ++
        bytesAt machine.connections id record.written?.toList) := by
  by_cases hseat : ∃ number, endOf? machine.connections number = some id
  · obtain ⟨number, hend⟩ := hseat
    rw [hsound.waiting_eq hend log,
      (htransition.sound hsound).waiting_eq (htransition.endOf?_of_eq hend) later]
    have hkept :
        ∀ {writes : List Write}, writes.Sublist (machine.unsent number) →
          (writes.flatMap Write.data).Sublist
            ((machine.unsent number).flatMap Write.data ++
              bytesAt machine.connections id record.written?.toList) :=
      fun hwrites => (hwrites.flatMap _).trans (List.sublist_append_left _ _)
    cases htransition.writing hsound.waiting number with
    | quiet hwrite hunsent =>
        rw [hunsent]
        exact hkept (List.Sublist.refl _)
    | @starts write hwrite hunsent =>
        have hview := htransition.written?_eq number
        rw [hwrite, Option.map_some] at hview
        obtain ⟨parcel, hparcel, hdata⟩ := Option.bind_eq_some_iff.mp hview
        split at hdata
        · next hnumber =>
            subst hnumber
            have hbytes :
                bytesAt machine.connections id record.written?.toList = write.data := by
              rw [hparcel, Option.toList_some, bytesAt_cons, if_pos hend, bytesAt_nil,
                List.append_nil]
              exact Option.some.inj hdata
            rw [hunsent, hbytes, List.flatMap_append, List.flatMap_singleton]
        · cases hdata
    | @sends ticket sent left later hwrite hbefore hafter =>
        rw [hbefore, hafter, List.flatMap_cons, List.flatMap_cons]
        have hleft : left.Sublist (sent ++ left) := List.sublist_append_right sent left
        exact (hleft.append_right _).trans (List.sublist_append_left _ _)
    | @answers write hwrite hanswer hunsent =>
        apply hkept
        rw [hunsent]
        exact List.sublist_cons_self write _
    | loses hlost hunsent => exact hkept hunsent
  · rw [htransition.waiting_of_empty hsound (not_exists.mp hseat) later]
    exact List.nil_sublist _

/-- Every transition keeps every ledger clean. -/
theorem Transition.clean
    (htransition : machine.Transition record next) (hregular : machine.Regular log)
    (hclean : (machine.ledger log id).Clean) :
    (next.ledger (log ++ [record]) id).Clean := by
  have hsound := hregular.sound
  have hrange := hregular.accounted.inRange
  have hwaiting := htransition.waiting_sublist hsound log (log ++ [record]) id
  have hsnoc := ledger_snoc hsound hrange htransition id
  by_cases hlost :
      ∃ number, record.lostSend? = some number ∧ endOf? machine.connections number = some id
  · obtain ⟨number, hnumber, -⟩ := hlost
    cases record with
    | abandoned pending =>
        have hinbox := htransition.inbox_of_silent hsound (by simp) id
        have hwritten : (Record.abandoned pending).written? = none := rfl
        have hreceived : (Record.abandoned pending).received? = none := rfl
        rw [hwritten, Option.toList_none, bytesAt_nil, List.append_nil] at hwaiting
        unfold Ledger.Clean at hclean ⊢
        rw [hsnoc, hwritten, hreceived, hinbox] at hwaiting ⊢
        simp only [Option.toList_none, bytesAt_nil, List.append_nil] at hwaiting ⊢
        exact (hwaiting.append_left _).trans hclean
    | _ => cases hnumber
  · have hstep : LedgerStep machine next log record id := by
      apply htransition.ledgerStep hsound hrange
      intro number hnumber hend
      exact hlost ⟨number, hnumber, hend⟩
    apply hclean.step hstep _ hwaiting
    rw [hsnoc]

end Machine

end ResourceHandles
