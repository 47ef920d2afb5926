/-
# The requests of the dialogs

A machine dialog sends one request to save or delete its machine at a time: it is busy until the
answer is there, and its buttons do nothing while it is.  A dialog that was closed while it was
busy leaves its request behind, and the next one may send another.  `busy_iff_underWay` : the open
dialog is busy exactly while its own request is under way, and no dialog has ever two.

The requests that only read, of the setup and of the history, are not counted: the dialog waits
for none of them.
-/
import Wakezilla.DashboardPage

namespace Wakezilla

open Dashboard MachineForm

/-- The number of the dialog that waits for the request. -/
def PageRequest.owner : PageRequest → Option ℕ
  | .save n _ => some n
  | .delete n _ => some n
  | .fetch => none

/-- The number of the dialog that waits for the answer. -/
def PageAnswer.owner : PageAnswer → Option ℕ
  | .saved n _ _ => some n
  | .deleted n _ _ => some n
  | .fetched _ => none

namespace Page

/-- The dialogs whose requests are under way, there or back. -/
def underWay (p : Page) : List ℕ :=
  p.requests.filterMap PageRequest.owner ++ p.answers.filterMap PageAnswer.owner

/-- No dialog has two requests under way, none of those that will be opened has one, and the
open dialog is busy exactly if it has one. -/
structure Numbered (p : Page) : Prop where
  distinct : p.underWay.Nodup
  opened : ∀ n ∈ p.underWay, n ≤ p.opened
  busy : ∀ d, p.dialog = some d → (d.saving = true ↔ p.opened ∈ p.underWay)

theorem owner_failed (message : String) (request : PageRequest) :
    (request.failed message).owner = request.owner := by
  cases request <;> rfl

theorem owner_handle (libs : Externals) (random : Vector UInt8 32) (fault : SaveFault)
    (now : Instant) (s : Proxy) (request : PageRequest) :
    (request.handle libs random fault now s).1.owner = request.owner := by
  cases request <;> rfl

/-- A request that becomes an answer is still under way. -/
theorem underWay_answered {p q : Page} {i : ℕ} {request : PageRequest} {answer : PageAnswer}
    (hrequest : p.requests[i]? = some request) (howner : answer.owner = request.owner)
    (hrequests : q.requests = p.requests.eraseIdx i)
    (hanswers : q.answers = p.answers ++ [answer]) : q.underWay.Perm p.underWay := by
  have hperm : p.requests.Perm (request :: p.requests.eraseIdx i) := by
    obtain ⟨hi, rfl⟩ := List.getElem?_eq_some_iff.mp hrequest
    exact (List.getElem_cons_eraseIdx_perm hi).symm
  have hleft := hperm.filterMap PageRequest.owner
  unfold underWay
  rw [hrequests, hanswers, List.filterMap_append]
  have hsingle : [answer].filterMap PageAnswer.owner = [request].filterMap PageRequest.owner := by
    simp only [List.filterMap_cons, List.filterMap_nil, howner]
  rw [hsingle]
  refine List.Perm.trans ?_ (hleft.symm.append_right _)
  rw [show request :: p.requests.eraseIdx i = [request] ++ p.requests.eraseIdx i from rfl,
    List.filterMap_append, ← List.append_assoc]
  refine List.perm_append_comm.trans ?_
  rw [← List.append_assoc]

/-- The invariant reads the numbers under way, and of the dialog only whether it is busy. -/
theorem Numbered.congr {p q : Page} (h : p.Numbered) (hway : q.underWay.Perm p.underWay)
    (hopened : q.opened = p.opened)
    (hdialog : ∀ d, q.dialog = some d → ∃ d', p.dialog = some d' ∧ d'.saving = d.saving) :
    q.Numbered := by
  refine ⟨hway.nodup_iff.mpr h.distinct, fun n hn => ?_, fun d hd => ?_⟩
  · rw [hopened]
    exact h.opened n (hway.subset hn)
  · obtain ⟨d', hd', hsaving⟩ := hdialog d hd
    rw [← hsaving, h.busy d' hd', hopened, hway.mem_iff]

/-- A button that sends nothing leaves the dialog as busy as it was; one that sends something
was pressed in a dialog that was not busy, and makes it busy. -/
def Behaves {α : Type} (button : MachineDialog → MachineDialog × Option α) : Prop :=
  ∀ d, ((button d).2 = none ∧ (button d).1.saving = d.saving) ∨
    ((button d).2.isSome = true ∧ d.saving = false ∧ (button d).1.saving = true)

theorem behaves_submit (cases : CaseMapping) : Behaves (MachineDialog.submit cases) := by
  intro d
  unfold MachineDialog.submit
  split
  · exact Or.inl ⟨rfl, rfl⟩
  next hsaving =>
  split
  · exact Or.inl ⟨rfl, rfl⟩
  dsimp only
  split
  · exact Or.inl ⟨rfl, rfl⟩
  · exact Or.inr ⟨rfl, by simpa using hsaving, rfl⟩

theorem behaves_delete : Behaves MachineDialog.delete := by
  intro d
  unfold MachineDialog.delete
  split
  · exact Or.inl ⟨rfl, rfl⟩
  next hsaving => exact Or.inr ⟨rfl, by simpa using hsaving, rfl⟩

theorem Numbered.press {α : Type} {button : MachineDialog → MachineDialog × Option α}
    {request : ℕ → α → PageRequest} {p : Page} (h : p.Numbered) (hbutton : Behaves button)
    (howner : ∀ n x, (request n x).owner = some n) : (p.press button request).Numbered := by
  rcases press_cases button request p with ⟨-, heq⟩ | ⟨d, hd, ⟨hx, heq⟩ | ⟨x, hx, heq⟩⟩
  · rw [heq]
    exact h
  · rw [heq]
    refine h.congr (List.Perm.refl _) rfl fun d' hd' => ?_
    cases hd'
    rcases hbutton d with ⟨-, hsaving⟩ | ⟨hsome, -⟩
    · exact ⟨d, hd, hsaving.symm⟩
    · rw [hx] at hsome
      cases hsome
  · rw [heq]
    have hfree : p.opened ∉ p.underWay := by
      rcases hbutton d with ⟨hnone, -⟩ | ⟨-, hidle, -⟩
      · rw [hx] at hnone
        cases hnone
      · rw [← h.busy d hd, hidle]
        exact Bool.false_ne_true
    have hway : ({ p with
        dialog := some (button d).1
        requests := p.requests ++ [request p.opened x] } : Page).underWay.Perm
          (p.opened :: p.underWay) := by
      unfold underWay
      rw [List.filterMap_append]
      simp only [List.filterMap_cons, List.filterMap_nil, howner, List.append_assoc,
        List.singleton_append]
      exact List.perm_middle
    refine ⟨hway.nodup_iff.mpr (List.nodup_cons.mpr ⟨hfree, h.distinct⟩), fun n hn => ?_,
      fun d' hd' => ?_⟩
    · rcases List.mem_cons.mp (hway.subset hn) with rfl | hn
      · exact le_rfl
      · exact h.opened n hn
    · cases hd'
      rcases hbutton d with ⟨hnone, -⟩ | ⟨-, -, hbusy⟩
      · rw [hx] at hnone
        cases hnone
      · exact iff_of_true hbusy (hway.mem_iff.mpr List.mem_cons_self)

theorem shown_opened (p : Page) : p.shown p.opened = p.dialog := if_pos rfl

theorem shown_of_ne {p : Page} {n : ℕ} (h : n ≠ p.opened) : p.shown n = none := if_neg h

/-- An answer to another dialog does not change the open one. -/
theorem receive_dialog_of_ne (time : String) {p : Page} {answer : PageAnswer}
    (howner : answer.owner ≠ some p.opened) : (p.receive time answer).dialog = p.dialog := by
  cases answer with
  | fetched result => rfl
  | deleted n machine result =>
    have hn : n ≠ p.opened := fun heq => howner (congrArg some heq)
    cases result with
    | error message => simp only [receive, reject, shown_of_ne hn]
    | ok value =>
      simp only [receive, shown_of_ne hn, Option.isSome_none, Bool.false_eq_true, if_false]
  | saved n form result =>
    have hn : n ≠ p.opened := fun heq => howner (congrArg some heq)
    cases result with
    | error message => simp only [receive, reject, shown_of_ne hn]
    | ok value => simp only [receive, shown_of_ne hn]

/-- After the answer to its request the open dialog is not busy any more. -/
theorem receive_idle (time : String) {p : Page} {answer : PageAnswer}
    (howner : answer.owner = some p.opened) :
    ∀ d, (p.receive time answer).dialog = some d → d.saving = false := by
  have hreject : ∀ message d, (p.reject p.opened message).dialog = some d → d.saving = false := by
    intro message d hd
    unfold reject at hd
    rw [shown_opened] at hd
    cases hdialog : p.dialog with
    | none =>
      simp only [hdialog] at hd
      cases hd
    | some d' =>
      simp only [hdialog] at hd
      cases hd
      rfl
  intro d hd
  cases answer with
  | fetched result => cases howner
  | deleted n machine result =>
    obtain rfl : n = p.opened := Option.some.inj howner
    cases result with
    | error message => exact hreject message d hd
    | ok value =>
      simp only [receive, shown_opened] at hd
      cases hdialog : p.dialog with
      | none => simp [hdialog] at hd
      | some d' => simp [hdialog] at hd
  | saved n form result =>
    obtain rfl : n = p.opened := Option.some.inj howner
    cases result with
    | error message => exact hreject message d hd
    | ok value =>
      simp only [receive, shown_opened] at hd
      cases hdialog : p.dialog with
      | none =>
        simp only [hdialog] at hd
        cases hd
      | some d' =>
        simp only [hdialog] at hd
        cases hd
        rfl

/-- An answer arrives: its dialog is not under way any more. -/
theorem Numbered.arrive {p : Page} (h : p.Numbered) {i : ℕ} {answer : PageAnswer}
    (hanswer : p.answers[i]? = some answer) (time : String) :
    ({ p with answers := p.answers.eraseIdx i }.receive time answer).Numbered := by
  set q : Page := { p with answers := p.answers.eraseIdx i } with hq
  have hway : p.underWay.Perm (answer.owner.toList ++ q.underWay) := by
    have hperm : p.answers.Perm (answer :: p.answers.eraseIdx i) := by
      obtain ⟨hi, rfl⟩ := List.getElem?_eq_some_iff.mp hanswer
      exact (List.getElem_cons_eraseIdx_perm hi).symm
    have hsingle : [answer].filterMap PageAnswer.owner = answer.owner.toList := by
      cases howner : answer.owner with
      | none => simp only [List.filterMap_cons, howner, List.filterMap_nil, Option.toList_none]
      | some n => simp only [List.filterMap_cons, howner, List.filterMap_nil, Option.toList_some]
    unfold underWay
    refine ((hperm.filterMap PageAnswer.owner).append_left _).trans ?_
    rw [hq, show answer :: p.answers.eraseIdx i = [answer] ++ p.answers.eraseIdx i from rfl,
      List.filterMap_append, hsingle, ← List.append_assoc, ← List.append_assoc]
    exact List.perm_append_comm.append_right _
  have hnodup := hway.nodup_iff.mp h.distinct
  have hsame : (q.receive time answer).underWay = q.underWay ∧
      (q.receive time answer).opened = p.opened := by
    rw [receive_frame]
    exact ⟨rfl, rfl⟩
  refine ⟨?_, fun n hn => ?_, fun d hd => ?_⟩
  · rw [hsame.1]
    exact (List.nodup_append.mp hnodup).2.1
  · rw [hsame.1] at hn
    rw [hsame.2]
    exact h.opened n (hway.symm.subset (List.mem_append_right _ hn))
  · rw [hsame.1, hsame.2]
    by_cases howner : answer.owner = some p.opened
    · -- the request was the one of this dialog, and there is no second one
      have hidle : d.saving = false := receive_idle (p := q) time howner d hd
      refine iff_of_false (by rw [hidle]; exact Bool.false_ne_true) fun hmem => ?_
      have hapart := (List.nodup_append.mp hnodup).2.2 p.opened
        (by rw [howner]; exact List.mem_singleton_self _) p.opened hmem
      exact hapart rfl
    · have hdialog : p.dialog = some d := (receive_dialog_of_ne (p := q) time howner).symm.trans hd
      rw [h.busy d hdialog, hway.mem_iff, List.mem_append, or_iff_right]
      rintro hmem
      exact howner (Option.mem_toList.mp hmem)

theorem Numbered.step (libs : Externals) (cases : CaseMapping) {p : Page} (h : p.Numbered)
    (event : PageEvent) : (p.step libs cases event).Numbered := by
  cases event with
  | proxy event => exact h.congr (List.Perm.refl _) rfl fun d hd => ⟨d, hd, rfl⟩
  | dashboard event =>
    obtain ⟨dashboard, -, heq⟩ := step_dashboard libs cases p event
    rw [heq]
    exact h.congr (List.Perm.refl _) rfl fun d hd => ⟨d, hd, rfl⟩
  | opened machine creating =>
    -- the new dialog has a number that no request under way has
    refine ⟨h.distinct, fun n hn => Nat.le_succ_of_le (h.opened n hn), fun d hd => ?_⟩
    cases hd
    refine iff_of_false Bool.false_ne_true fun hmem => ?_
    have hle : p.opened + 1 ≤ p.opened := h.opened _ hmem
    omega
  | edited draft services =>
    refine h.congr (List.Perm.refl _) rfl fun d hd => ?_
    obtain ⟨d', hd', rfl⟩ := Option.map_eq_some_iff.mp hd
    refine ⟨d', hd', ?_⟩
    split <;> rfl
  | closed =>
    refine h.congr (List.Perm.refl _) rfl fun d hd => ?_
    cases hd
  | submitted => exact h.press (behaves_submit cases) fun _ _ => rfl
  | deletePressed => exact h.press behaves_delete fun _ _ => rfl
  | refreshed =>
    refine h.congr ?_ rfl fun d hd => ⟨d, hd, rfl⟩
    unfold underWay
    show ((p.requests ++ [PageRequest.fetch]).filterMap _ ++ _).Perm _
    rw [List.filterMap_append]
    simp only [List.filterMap_cons, PageRequest.owner, List.filterMap_nil, List.append_nil]
    exact List.Perm.refl _
  | served i random fault now broken =>
    show (p.serve libs i random fault now broken).Numbered
    unfold serve
    split
    · exact h
    next request hrequest =>
    refine h.congr (underWay_answered hrequest ?_ rfl rfl) rfl fun d hd => ⟨d, hd, rfl⟩
    cases broken with
    | none => exact owner_handle libs random fault now p.proxy request
    | some message => exact owner_failed message request
  | lost i message =>
    show (p.lose i message).Numbered
    unfold lose
    split
    · exact h
    next request hrequest =>
    exact h.congr (underWay_answered hrequest (owner_failed message request) rfl rfl) rfl
      fun d hd => ⟨d, hd, rfl⟩
  | arrived i time =>
    unfold Page.step
    simp only []
    split
    · exact h
    next answer hanswer => exact h.arrive hanswer time

end Page

/-- **A dialog is busy exactly while its request is under way.**  So it never has two, whatever
the order in which requests are handled and answers arrive, the requests that get lost and the
dialogs that are closed meanwhile. -/
theorem busy_iff_underWay (libs : Externals) (cases : CaseMapping) (proxy : Proxy)
    (es : List PageEvent) :
    (Page.run libs cases proxy es).underWay.Nodup ∧
      ∀ d, (Page.run libs cases proxy es).dialog = some d →
        (d.saving = true ↔ (Page.run libs cases proxy es).opened ∈
          (Page.run libs cases proxy es).underWay) := by
  have hnumbered : (Page.run libs cases proxy es).Numbered :=
    Run.exec_invariant_of_forall es
      ⟨List.nodup_nil, fun n hn => absurd hn List.not_mem_nil, fun d hd => by cases hd⟩
      fun p event h => h.step libs cases event
  exact ⟨hnumbered.distinct, hnumbered.busy⟩

/-- A notebook is submitted twice, and the second time nothing is sent. -/
theorem notebook_sent_once :
    let p := Page.run libraries asciiCases (startMachines [] none fun _ => 0)
      [.opened enteredNotebook true, .submitted, .submitted]
    p.underWay = [1] ∧ ∃ d, p.dialog = some d ∧ d.saving = true := by
  intro p
  have hway : p.underWay = [1] := by decide +kernel
  have hopened : p.opened = 1 := by decide +kernel
  obtain ⟨d, hd⟩ : ∃ d, p.dialog = some d := Option.isSome_iff_exists.mp (by decide +kernel)
  refine ⟨hway, d, hd, ?_⟩
  refine ((busy_iff_underWay libraries asciiCases (startMachines [] none fun _ => 0)
    [.opened enteredNotebook true, .submitted, .submitted]).2 d hd).mpr ?_
  change p.opened ∈ p.underWay
  rw [hway, hopened]
  exact List.mem_singleton_self 1

end Wakezilla
