import ResourceHandles.Bytes
import Mathlib.Tactic

/-!
# Ledgers

A ledger accounts for the bytes of one direction of a link: those that were
written, those that were received, those that are under way, and those that still
wait to be sent.  As long as nothing was lost, what was written is what was
received, is under way or waits, in this order.  Once something was lost nothing
new gets under way, so what arrives is a prefix of what was written for ever.
-/

namespace ResourceHandles

/-- The bytes of one direction of a link. -/
structure Ledger where
  written : Bytes
  received : Bytes
  underWay : Bytes
  waiting : Bytes
  deriving Repr, DecidableEq

namespace Ledger

/-- The bytes that left the sender: what was received and what is under way. -/
def carried (ledger : Ledger) : Bytes :=
  ledger.received ++ ledger.underWay

/-- What may happen to a ledger.  `intact` and `intact'` tell whether nothing was
lost before and after, `sender` whether there is an open connection that can write,
`sends` and `receives` which kind of action is carried out. -/
inductive Step (intact intact' sender sends receives : Prop) : Ledger → Ledger → Prop where
  | quiet {ledger : Ledger} (hintact : intact' → intact) :
      Step intact intact' sender sends receives ledger ledger
  | write {written received underWay waiting data : Bytes}
      (hsender : data = [] ∨ sender) (hintact : intact' → intact) :
      Step intact intact' sender sends receives
        ⟨written, received, underWay, waiting⟩
        ⟨written ++ data, received, underWay, waiting ++ data⟩
  | receive {written received underWay waiting data : Bytes}
      (hreceives : receives) (hintact : intact' → intact) :
      Step intact intact' sender sends receives
        ⟨written, received, data ++ underWay, waiting⟩
        ⟨written, received ++ data, underWay, waiting⟩
  | send {written received underWay waiting data : Bytes}
      (hsends : sends) (hsender : sender) (hbefore : intact) :
      Step intact intact' sender sends receives
        ⟨written, received, underWay, data ++ waiting⟩
        ⟨written, received, underWay ++ data, waiting⟩
  | lose {written received underWay waiting waiting' : Bytes} (hlost : ¬intact') :
      Step intact intact' sender sends receives
        ⟨written, received, underWay, waiting⟩ ⟨written, received, underWay, waiting'⟩
  | fresh : Step intact intact' sender sends receives ⟨[], [], [], []⟩ ⟨[], [], [], []⟩

/-- What arrives is a prefix of what was written, and nothing is missing as long
as nothing was lost. -/
structure Balanced (intact : Prop) (ledger : Ledger) : Prop where
  arrives : ledger.received ++ ledger.underWay <+: ledger.written
  complete :
    intact →
      ledger.written = ledger.received ++ ledger.underWay ++ ledger.waiting

/-- What was received, is under way or waits was written, in this order, though perhaps
with something missing in between. -/
def Clean (ledger : Ledger) : Prop :=
  (ledger.received ++ ledger.underWay ++ ledger.waiting).Sublist ledger.written

variable {intact intact' sender sends receives : Prop} {ledger next : Ledger}

theorem Balanced.step
    (hbalanced : ledger.Balanced intact)
    (hstep : Step intact intact' sender sends receives ledger next) :
    next.Balanced intact' := by
  obtain ⟨harrives, hcomplete⟩ := hbalanced
  cases hstep with
  | quiet hintact => exact ⟨harrives, fun hafter => hcomplete (hintact hafter)⟩
  | write hsender hintact =>
      constructor
      · exact harrives.trans (List.prefix_append _ _)
      · intro hafter
        have hequal := hcomplete (hintact hafter)
        simp only at hequal ⊢
        rw [hequal, List.append_assoc]
  | receive hreceives hintact =>
      constructor
      · simp only at harrives ⊢
        rw [List.append_assoc]
        exact harrives
      · intro hafter
        have hequal := hcomplete (hintact hafter)
        simp only at hequal ⊢
        rw [hequal]
        simp only [List.append_assoc]
  | @send written received underWay waiting data hsends hsender hbefore =>
      have hequal := hcomplete hbefore
      simp only at hequal
      constructor
      · refine ⟨waiting, ?_⟩
        rw [hequal]
        simp only [List.append_assoc]
      · intro _
        simp only
        rw [hequal]
        simp only [List.append_assoc]
  | lose hlost => exact ⟨harrives, fun hafter => absurd hafter hlost⟩
  | fresh => exact ⟨List.nil_prefix, fun _ => rfl⟩

theorem Clean.step
    (hclean : ledger.Clean) (hstep : Step intact intact' sender sends receives ledger next)
    {data : Bytes} (hwritten : next.written = ledger.written ++ data)
    (hwaiting : next.waiting.Sublist (ledger.waiting ++ data)) :
    next.Clean := by
  unfold Clean at hclean ⊢
  cases hstep with
  | quiet hintact => exact hclean
  | @write written received underWay waiting added hsender hintact =>
      simp only at hclean ⊢
      rw [← List.append_assoc]
      exact hclean.append_right added
  | receive hreceives hintact =>
      simp only [List.append_assoc] at hclean ⊢
      exact hclean
  | send hsends hsender hbefore =>
      simp only [List.append_assoc] at hclean ⊢
      exact hclean
  | lose hlost =>
      have hnothing : data = [] := by simpa using hwritten
      simp only [hnothing, List.append_nil] at hclean hwaiting ⊢
      exact (hwaiting.append_left _).trans hclean
  | fresh => exact List.Sublist.refl _

/-- Without a sender nothing that is written is missing any more, if nothing was
missing before. -/
theorem settled_step
    (hsettled : ledger.written = ledger.received ++ ledger.underWay)
    (hsender : ¬sender)
    (hstep : Step intact intact' sender sends receives ledger next) :
    next.written = next.received ++ next.underWay := by
  cases hstep with
  | quiet hintact => exact hsettled
  | write hwriter hintact =>
      rcases hwriter with hnone | hwriter
      · subst hnone
        simpa using hsettled
      · exact absurd hwriter hsender
  | receive hreceives hintact =>
      simp only at hsettled ⊢
      rw [hsettled, List.append_assoc]
  | send hsends hwriter hbefore => exact absurd hwriter hsender
  | lose hlost => exact hsettled
  | fresh => rfl

/-- Without a sender nothing more gets under way. -/
theorem carried_eq_of_step
    (hsender : ¬sender)
    (hstep : Step intact intact' sender sends receives ledger next) :
    next.carried = ledger.carried := by
  unfold carried
  cases hstep with
  | quiet hintact => rfl
  | write hwriter hintact => rfl
  | receive hreceives hintact => simp only [List.append_assoc]
  | send hsends hwriter hbefore => exact absurd hwriter hsender
  | lose hlost => rfl
  | fresh => rfl

theorem underWay_step
    (hsender : ¬sender)
    (hstep : Step intact intact' sender sends receives ledger next) :
    next.underWay <:+ ledger.underWay := by
  cases hstep with
  | quiet hintact => exact List.suffix_rfl
  | write hwriter hintact => exact List.suffix_rfl
  | receive hreceives hintact => exact List.suffix_append _ _
  | send hsends hwriter hbefore => exact absurd hwriter hsender
  | lose hlost => exact List.suffix_rfl
  | fresh => exact List.suffix_rfl

theorem underWay_suffix_of_step
    (hsends : ¬sends)
    (hstep : Step intact intact' sender sends receives ledger next) :
    next.underWay <:+ ledger.underWay := by
  cases hstep with
  | quiet hintact => exact List.suffix_rfl
  | write hwriter hintact => exact List.suffix_rfl
  | receive hreceives hintact => exact List.suffix_append _ _
  | send hsender hwriter hbefore => exact absurd hsender hsends
  | lose hlost => exact List.suffix_rfl
  | fresh => exact List.suffix_rfl

theorem underWay_eq_of_step
    (hsends : ¬sends) (hreceives : ¬receives)
    (hstep : Step intact intact' sender sends receives ledger next) :
    next.underWay = ledger.underWay := by
  cases hstep with
  | quiet hintact => rfl
  | write hwriter hintact => rfl
  | receive hreceiver hintact => exact absurd hreceiver hreceives
  | send hsender hwriter hbefore => exact absurd hsender hsends
  | lose hlost => rfl
  | fresh => rfl

end Ledger

end ResourceHandles
