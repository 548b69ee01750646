import Mathlib.Data.List.Sort
import ClawKernel.Lib.Ranking

/-! Selecting from a list, sorting and cutting it in an order that puts those entries first that
belong last, as an order of signed numbers does with unsigned ones.
-/
namespace ClawKernel.Lib.Turned

variable {α : Type}

/-- The first so many entries, or all. -/
def cut (limit : Option Nat) (l : List α) : List α :=
  match limit with
  | some count => l.take count
  | none => l

/-- The entries that are selected, in some order that is sorted, cut to a limit. -/
def Answer (before : α → α → Prop) (selected : α → Bool) (limit : Option Nat) (entries result : List α) : Prop :=
  ∃ ordered, ordered.Perm (entries.filter selected) ∧ ordered.Pairwise before ∧ result = cut limit ordered

/-- `actual` puts the late entries first, `intended` last, and they agree on entries of one kind. What is
chosen without being wanted, or wanted without being chosen, shows that no entry of its kind can be
wanted, or chosen. -/
structure Turned (late chosen wanted : α → Bool) (actual intended : α → α → Prop) : Prop where
  front : ∀ a b, late a = false → late b = true → ¬actual a b
  back : ∀ a b, late a = true → late b = false → ¬intended a b
  last : ∀ a b, late a = false → late b = true → intended a b
  alike : ∀ a b, late a = late b → (actual a b ↔ intended a b)
  extra : ∀ a b, late a = late b → chosen a = true → wanted a = false → wanted b = false
  missed : ∀ a b, late a = late b → wanted a = true → chosen a = false → chosen b = false

/-- No late entry is chosen that is not wanted, no early one is wanted and not chosen, those that are
both are of one kind, and if there is any other, these are as many as the limit asks for. -/
structure Agrees (late chosen wanted : α → Bool) (limit : Option Nat) (entries : List α) : Prop where
  lateWanted : ∀ a ∈ entries, late a = true → chosen a = true → wanted a = true
  earlyChosen : ∀ a ∈ entries, late a = false → wanted a = true → chosen a = true
  oneKind : ∀ a ∈ entries, ∀ b ∈ entries, (chosen a && wanted a) = true → (chosen b && wanted b) = true → late a = late b
  enough : (∃ a ∈ entries, chosen a ≠ wanted a) →
    ∃ count, limit = some count ∧ count ≤ (entries.filter (fun a => chosen a && wanted a)).length

theorem cut_sublist (limit : Option Nat) (l : List α) : (cut limit l).Sublist l := by
  cases limit with
  | none => exact List.Sublist.refl l
  | some count => exact List.take_sublist count l

theorem cut_head (limit : Option Nat) (a : α) (l : List α) (positive : limit ≠ some 0) :
    (cut limit (a :: l)).head? = some a := by
  cases limit with
  | none => rfl
  | some count =>
    cases count with
    | zero => exact absurd rfl positive
    | succ count => rfl

/-- A list that is cut to less than its limit is not cut. -/
theorem cut_short (limit : Option Nat) (l : List α)
    (short : ¬∃ count, limit = some count ∧ count ≤ (cut limit l).length) : cut limit l = l := by
  cases limit with
  | none => rfl
  | some count =>
    refine List.take_of_length_le (Nat.le_of_not_lt (fun longer => short ⟨count,rfl,?_⟩))
    rw [cut,List.length_take]
    exact Nat.le_min.mpr ⟨Nat.le_refl _,Nat.le_of_lt longer⟩

theorem split_sorted (late : α → Bool) (before : α → α → Prop)
    (front : ∀ a b, late a = false → late b = true → ¬before a b) (l : List α) (sorted : l.Pairwise before) :
    l = l.filter late ++ l.filter (fun a => !late a) := by
  induction l with
  | nil => rfl
  | cons a l ih =>
    obtain ⟨first,later⟩ := List.pairwise_cons.mp sorted
    cases kind : late a with
    | true =>
      rw [List.filter_cons_of_pos kind,List.filter_cons_of_neg (by simp [kind]),List.cons_append,← ih later]
    | false =>
      have none_late : l.filter late = [] := by
        rw [List.filter_eq_nil_iff]
        exact fun b member turned => front a b kind turned (first b member)
      have early := ih later
      rw [none_late,List.nil_append] at early
      rw [List.filter_cons_of_neg (by simp [kind]),List.filter_cons_of_pos (by simp [kind]),none_late,List.nil_append,
        ← early]

/-- The first of a sorted list is of the kind that comes first, if there is any of that kind. -/
theorem head_late (late : α → Bool) (before : α → α → Prop)
    (front : ∀ a b, late a = false → late b = true → ¬before a b) (l : List α) (sorted : l.Pairwise before)
    (a : α) (member : a ∈ l) (kind : late a = true) : ∃ head rest, l = head :: rest ∧ late head = true := by
  cases l with
  | nil => cases member
  | cons head rest =>
    refine ⟨head,rest,rfl,?_⟩
    rcases List.mem_cons.mp member with rfl | inside
    · exact kind
    · by_contra other
      exact front head a (by simpa using other) kind ((List.pairwise_cons.mp sorted).1 a inside)

theorem answer_selected (before : α → α → Prop) (selected : α → Bool) (limit : Option Nat) (entries result : List α)
    (answer : Answer before selected limit entries result) (a : α) (member : a ∈ result) : selected a = true := by
  obtain ⟨ordered,perm,_,cutting⟩ := answer
  rw [cutting] at member
  exact (List.mem_filter.mp (perm.mem_iff.mp ((cut_sublist limit ordered).subset member))).2

/-- An answer begins with an entry of the kind that comes first, if one of that kind is selected. -/
theorem answer_head (late : α → Bool) (before : α → α → Prop) (selected : α → Bool)
    (front : ∀ a b, late a = false → late b = true → ¬before a b) (limit : Option Nat) (positive : limit ≠ some 0)
    (entries result : List α) (answer : Answer before selected limit entries result) (a : α) (member : a ∈ entries)
    (kind : late a = true) (taken : selected a = true) : ∃ head, result.head? = some head ∧ late head = true := by
  obtain ⟨ordered,perm,sorted,cutting⟩ := answer
  obtain ⟨head,rest,shape,first⟩ := head_late late before front ordered sorted a
    (perm.mem_iff.mpr (List.mem_filter.mpr ⟨member,taken⟩)) kind
  refine ⟨head,?_,first⟩
  rw [cutting,shape]
  exact cut_head limit head rest positive

section
variable (late chosen wanted : α → Bool) (actual intended : α → α → Prop)
variable (turned : Turned late chosen wanted actual intended) (limit : Option Nat) (entries : List α)

/-- What is both given and intended is among the entries that are both chosen and wanted. -/
theorem enough_of_answer (result : List α) (given : Answer actual chosen limit entries result)
    (meant : Answer intended wanted limit entries result) (differs : ∃ a ∈ entries, chosen a ≠ wanted a) :
    ∃ count, limit = some count ∧ count ≤ (entries.filter (fun a => chosen a && wanted a)).length := by
  have both : result.filter wanted = result :=
    List.filter_eq_self.mpr (answer_selected intended wanted limit entries result meant)
  obtain ⟨ordered,perm,_,cutting⟩ := given
  obtain ⟨planned,perm',_,cutting'⟩ := meant
  by_contra few
  have bound : result.length ≤ (entries.filter (fun a => chosen a && wanted a)).length := by
    have inside : (result.filter wanted).Sublist (ordered.filter wanted) := by
      rw [cutting]
      exact (cut_sublist limit ordered).filter wanted
    have size := (perm.filter wanted).length_eq
    rw [List.filter_filter] at size
    have same : entries.filter (fun a => wanted a && chosen a) = entries.filter (fun a => chosen a && wanted a) :=
      List.filter_congr (fun a _ => Bool.and_comm _ _)
    rw [both] at inside
    rw [← same,← size]
    exact inside.length_le
  have whole : result = ordered := by
    rw [cutting]
    refine cut_short limit ordered (fun ⟨count,same,least⟩ => few ⟨count,same,?_⟩)
    rw [← cutting] at least
    exact Nat.le_trans least bound
  have whole' : result = planned := by
    rw [cutting']
    refine cut_short limit planned (fun ⟨count,same,least⟩ => few ⟨count,same,?_⟩)
    rw [← cutting'] at least
    exact Nat.le_trans least bound
  obtain ⟨a,member,different⟩ := differs
  apply different
  have one : a ∈ result ↔ chosen a = true := by
    rw [whole,perm.mem_iff,List.mem_filter]
    exact and_iff_right member
  have other : a ∈ result ↔ wanted a = true := by
    rw [whole',perm'.mem_iff,List.mem_filter]
    exact and_iff_right member
  rw [Bool.eq_iff_iff,← one,other]

include turned

theorem agrees_of_answer (positive : limit ≠ some 0) (result : List α)
    (given : Answer actual chosen limit entries result) (meant : Answer intended wanted limit entries result) :
    Agrees late chosen wanted limit entries := by
  have enough := enough_of_answer chosen wanted actual intended limit entries result given meant
  have isChosen := answer_selected actual chosen limit entries result given
  have isWanted := answer_selected intended wanted limit entries result meant
  have lateHead := answer_head late actual chosen turned.front limit positive entries result given
  have earlyHead := answer_head (fun a => !late a) intended wanted
    (fun x y one other => turned.back x y (by simpa using one) (by simpa using other)) limit positive entries result meant
  refine ⟨?_,?_,?_,enough⟩
  · intro a member kind taken
    by_contra unwanted
    obtain ⟨head,there,first⟩ := lateHead a member kind taken
    have asked := isWanted head (List.mem_of_mem_head? there)
    rw [turned.extra a head (kind.trans first.symm) taken (by simpa using unwanted)] at asked
    cases asked
  · intro a member kind asked
    by_contra untaken
    obtain ⟨head,there,first⟩ := earlyHead a member (by simp [kind]) asked
    have early : late head = false := by simpa using first
    have taken := isChosen head (List.mem_of_mem_head? there)
    rw [turned.missed a head (kind.trans early.symm) asked (by simpa using untaken)] at taken
    cases taken
  · have apart (a b : α) (member : a ∈ entries) (member' : b ∈ entries) (kind : late a = true) (kind' : late b = false)
        (taken : chosen a = true) (asked : wanted b = true) : False := by
      obtain ⟨head,there,first⟩ := lateHead a member kind taken
      obtain ⟨other,same,first'⟩ := earlyHead b member' (by simp [kind']) asked
      rw [there,Option.some.injEq] at same
      subst same
      rw [first] at first'
      cases first'
    intro a member b member' one other
    obtain ⟨taken,asked⟩ := Bool.and_eq_true_iff.mp one
    obtain ⟨taken',asked'⟩ := Bool.and_eq_true_iff.mp other
    cases kind : late a with
    | true =>
      cases kind' : late b with
      | true => rfl
      | false => exact (apart a b member member' kind kind' taken asked').elim
    | false =>
      cases kind' : late b with
      | true => exact (apart b a member' member kind' kind taken' asked).elim
      | false => rfl

/-- Entries of one kind are sorted in both orders, or in neither. -/
theorem intended_of_actual (l : List α) (one : ∀ a ∈ l, ∀ b ∈ l, late a = late b) (sorted : l.Pairwise actual) :
    l.Pairwise intended :=
  List.Pairwise.imp_of_mem (fun inside inside' before => (turned.alike _ _ (one _ inside _ inside')).mp before) sorted

/-- Enough late entries: what is wanted is what is chosen and late, and that comes first. -/
theorem answer_late (agrees : Agrees late chosen wanted limit entries) (count : Nat)
    (least : count ≤ (entries.filter (fun a => chosen a && wanted a)).length) (b : α) (there : b ∈ entries)
    (taken : chosen b = true) (asked : wanted b = true) (kind : late b = true) (ordered : List α)
    (perm : ordered.Perm (entries.filter chosen)) (sorted : ordered.Pairwise actual) :
    Answer intended wanted (some count) entries (ordered.take count) := by
  have same (a : α) (inside : a ∈ entries) : (late a && chosen a) = wanted a := by
    cases kind' : late a with
    | true =>
      cases taken' : chosen a with
      | true => exact (agrees.lateWanted a inside kind' taken').symm
      | false =>
        cases asked' : wanted a with
        | false => rfl
        | true =>
          have clash := turned.missed a b (kind'.trans kind.symm) asked' taken'
          rw [taken] at clash
          cases clash
    | false =>
      cases asked' : wanted a with
      | false => rfl
      | true =>
        have taken' := agrees.earlyChosen a inside kind' asked'
        have clash := agrees.oneKind a inside b there (by rw [taken',asked']; rfl) (by rw [taken,asked]; rfl)
        rw [kind,kind'] at clash
        cases clash
  have wantedPerm : (ordered.filter late).Perm (entries.filter wanted) := by
    have filtered := perm.filter late
    rw [List.filter_filter] at filtered
    rwa [List.filter_congr same] at filtered
  refine ⟨ordered.filter late,wantedPerm,?_,?_⟩
  · refine intended_of_actual late chosen wanted actual intended turned _ (fun a inside b inside' => ?_)
      (sorted.filter late)
    rw [(List.mem_filter.mp inside).2,(List.mem_filter.mp inside').2]
  · have size : count ≤ (ordered.filter late).length := by
      rw [wantedPerm.length_eq]
      refine Nat.le_trans least ((List.monotone_filter_right entries (fun a both => ?_)).length_le)
      exact (Bool.and_eq_true_iff.mp both).2
    conv => lhs; rw [split_sorted late actual turned.front ordered sorted]
    exact List.take_append_of_le_length size

/-- Enough early entries: what is chosen is what is wanted and early, and that comes first. -/
theorem answer_early (sorts : ∀ l : List α, ∃ planned : List α, planned.Perm l ∧ planned.Pairwise intended)
    (agrees : Agrees late chosen wanted limit entries) (count : Nat)
    (least : count ≤ (entries.filter (fun a => chosen a && wanted a)).length) (b : α) (there : b ∈ entries)
    (taken : chosen b = true) (asked : wanted b = true) (kind : late b = false) (ordered : List α)
    (perm : ordered.Perm (entries.filter chosen)) (sorted : ordered.Pairwise actual) :
    Answer intended wanted (some count) entries (ordered.take count) := by
  have same (a : α) (inside : a ∈ entries) : (!late a && wanted a) = chosen a := by
    cases kind' : late a with
    | false =>
      cases asked' : wanted a with
      | true => exact (agrees.earlyChosen a inside kind' asked').symm
      | false =>
        cases taken' : chosen a with
        | false => rfl
        | true =>
          have clash := turned.extra a b (kind'.trans kind.symm) taken' asked'
          rw [asked] at clash
          cases clash
    | true =>
      cases taken' : chosen a with
      | false => rfl
      | true =>
        have asked' := agrees.lateWanted a inside kind' taken'
        have clash := agrees.oneKind a inside b there (by rw [taken',asked']; rfl) (by rw [taken,asked]; rfl)
        rw [kind,kind'] at clash
        cases clash
  have early (a : α) (member : a ∈ ordered) : late a = false := by
    obtain ⟨inside,chosen'⟩ := List.mem_filter.mp (perm.mem_iff.mp member)
    have := (Bool.and_eq_true_iff.mp ((same a inside).trans chosen')).1
    simpa using this
  obtain ⟨rest,perm',sorted'⟩ := sorts ((entries.filter wanted).filter late)
  refine ⟨ordered ++ rest,?_,?_,?_⟩
  · have first : ordered.Perm ((entries.filter wanted).filter (fun a => !late a)) := by
      rw [List.filter_filter,List.filter_congr same]
      exact perm
    refine (first.append perm').trans (List.perm_append_comm.trans ?_)
    exact List.filter_append_perm late (entries.filter wanted)
  · refine List.pairwise_append.mpr ⟨?_,sorted',fun a inside c member => ?_⟩
    · exact intended_of_actual late chosen wanted actual intended turned ordered
        (fun a inside c inside' => (early a inside).trans (early c inside').symm) sorted
    · exact turned.last a c (early a inside) (List.mem_filter.mp (perm'.mem_iff.mp member)).2
  · have size : count ≤ ordered.length := by
      rw [perm.length_eq]
      refine Nat.le_trans least ((List.monotone_filter_right entries (fun a both => ?_)).length_le)
      exact (Bool.and_eq_true_iff.mp both).1
    exact (List.take_append_of_le_length size).symm

theorem answer_of_agrees (sorts : ∀ l : List α, ∃ planned : List α, planned.Perm l ∧ planned.Pairwise intended)
    (agrees : Agrees late chosen wanted limit entries) (result : List α)
    (given : Answer actual chosen limit entries result) : Answer intended wanted limit entries result := by
  obtain ⟨ordered,perm,sorted,cutting⟩ := given
  have known (a : α) (member : a ∈ ordered) : a ∈ entries ∧ chosen a = true := List.mem_filter.mp (perm.mem_iff.mp member)
  by_cases differs : ∃ a ∈ entries, chosen a ≠ wanted a
  · obtain ⟨count,limited,least⟩ := agrees.enough differs
    rw [cutting,limited]
    cases count with
    | zero =>
      obtain ⟨planned,perm',sorted'⟩ := sorts (entries.filter wanted)
      exact ⟨planned,perm',sorted',by rw [cut,cut,List.take_zero,List.take_zero]⟩
    | succ count =>
      obtain ⟨b,member⟩ := List.exists_mem_of_length_pos (Nat.lt_of_lt_of_le (Nat.succ_pos count) least)
      obtain ⟨there,both⟩ := List.mem_filter.mp member
      obtain ⟨taken,asked⟩ := Bool.and_eq_true_iff.mp both
      cases kind : late b with
      | true =>
        exact answer_late late chosen wanted actual intended turned limit entries agrees _ least b there taken asked kind
          ordered perm sorted
      | false =>
        exact answer_early late chosen wanted actual intended turned limit entries sorts agrees _ least b there taken asked
          kind ordered perm sorted
  · have same : entries.filter chosen = entries.filter wanted :=
      List.filter_congr (fun a member => by_contra (fun different => differs ⟨a,member,different⟩))
    refine ⟨ordered,same ▸ perm,?_,cutting⟩
    refine intended_of_actual late chosen wanted actual intended turned ordered (fun a inside b inside' => ?_) sorted
    have alike (c : α) (member : c ∈ ordered) : c ∈ entries ∧ (chosen c && wanted c) = true := by
      obtain ⟨there,taken⟩ := known c member
      have asked : chosen c = wanted c := by_contra (fun different => differs ⟨c,there,different⟩)
      exact ⟨there,by rw [← asked,taken]; rfl⟩
    exact agrees.oneKind a (alike a inside).1 b (alike b inside').1 (alike a inside).2 (alike b inside').2

/-- Answers in the one order are answers in the other exactly if nothing is asked for, or both selections agree
as far as the limit goes. -/
theorem answers_iff (sorts : ∀ l : List α, ∃ planned : List α, planned.Perm l ∧ planned.Pairwise intended)
    (given : List α → Prop) (sound : ∀ result, given result → Answer actual chosen limit entries result)
    (answered : ∃ result, given result) :
    (∀ result, given result → Answer intended wanted limit entries result) ↔
      limit = some 0 ∨ Agrees late chosen wanted limit entries := by
  constructor
  · intro all
    by_cases positive : limit = some 0
    · exact .inl positive
    · obtain ⟨result,here⟩ := answered
      exact .inr (agrees_of_answer late chosen wanted actual intended turned limit entries positive result
        (sound result here) (all result here))
  · rintro (zero | agrees) result here
    · obtain ⟨ordered,_,_,cutting⟩ := sound result here
      obtain ⟨planned,perm,sorted⟩ := sorts (entries.filter wanted)
      exact ⟨planned,perm,sorted,by rw [cutting,zero,cut,cut,List.take_zero,List.take_zero]⟩
    · exact answer_of_agrees late chosen wanted actual intended turned limit entries sorts agrees result (sound result here)

end
end ClawKernel.Lib.Turned
