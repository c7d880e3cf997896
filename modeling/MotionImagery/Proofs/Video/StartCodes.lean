import MotionImagery.Proofs.Access.Video

/-!
Where coded units begin. Zeros at the end of a unit run into the start code of the next one, and
still each unit is seen where it begins, and nothing else is taken for the beginning of one.
-/
namespace MotionImagery.Video

def startCode : Bytes := [0, 0, 1]

/-- There is no start code in the bytes. -/
def Bare (bytes : Bytes) : Prop := ¬startCode <:+: bytes

instance (bytes : Bytes) : Decidable (Bare bytes) :=
  inferInstanceAs (Decidable (¬startCode <:+: bytes))

/-- Some bytes, and behind them units that each have a start code before them. -/
def coded (lead : Bytes) (units : List Bytes) : Bytes := lead ++ units.flatMap (startCode ++ ·)

variable {lead rest : Bytes} {units : List Bytes}

theorem startCodes_of_eq {first : UInt8} {behind : Bytes}
    (code : first :: rest = startCode ++ behind) (offset : Nat) :
    startCodes offset (first :: rest) = (offset + 3, behind) :: startCodes (offset + 1) rest := by
  obtain ⟨rfl, rfl⟩ := List.cons.inj code
  exact (Access.startCodes_cons ..).trans (congrArg (· ++ _) (if_pos ⟨rfl, rfl, rfl⟩))

theorem startCodes_of_other {first : UInt8} (other : ¬startCode <+: first :: rest)
    (offset : Nat) : startCodes offset (first :: rest) = startCodes (offset + 1) rest := by
  match rest, other with
  | [], _ | [_], _ => rfl
  | second :: third :: coded, other =>
    rw [Access.startCodes_cons, if_neg, List.nil_append]
    rintro ⟨rfl, rfl, rfl⟩
    exact other ⟨coded, rfl⟩

/-- No start code begins at the second or the third byte of one. -/
theorem startCodes_startCode (offset : Nat) (rest : Bytes) :
    startCodes offset (startCode ++ rest) = (offset + 3, rest) :: startCodes (offset + 3) rest := by
  have second : ¬startCode <+: 0 :: 1 :: rest := by simp [startCode]
  have third : ¬startCode <+: 1 :: rest := by simp [startCode]
  exact (startCodes_of_eq rfl offset).trans (congrArg (_ :: ·)
    ((startCodes_of_other second _).trans (startCodes_of_other third _)))

/-- A start code behind bare bytes does not begin in them. -/
theorem not_prefix_of_bare (bare : Bare lead) (some : lead ≠ [])
    (closed : rest = [] ∨ startCode <+: rest) : ¬startCode <+: lead ++ rest := by
  rintro ⟨coded, same⟩
  match lead, bare, some with
  | [first], bare, _ =>
    obtain ⟨rfl, rfl⟩ := List.cons.inj same
    obtain none | ⟨behind, code⟩ := closed
    · cases none
    · exact absurd (List.cons.inj (List.cons.inj code).2).1 (by decide)
  | [first, second], bare, _ =>
    obtain ⟨rfl, rfl, rfl⟩ : 0 = first ∧ 0 = second ∧ 1 :: coded = rest := by
      simpa [startCode] using same
    obtain none | ⟨behind, code⟩ := closed
    · cases none
    · exact absurd (List.cons.inj code).1 (by decide)
  | first :: second :: third :: more, bare, _ =>
    obtain ⟨rfl, rfl, rfl, -⟩ : 0 = first ∧ 0 = second ∧ 1 = third ∧ coded = more ++ rest := by
      simpa [startCode] using same
    exact bare ⟨[], more, rfl⟩

theorem Bare.tail {first : UInt8} (bare : Bare (first :: lead)) : Bare lead :=
  fun code => bare (code.trans (List.suffix_cons first lead).isInfix)

theorem startCodes_bare (bare : Bare lead) (closed : rest = [] ∨ startCode <+: rest)
    (offset : Nat) :
    startCodes offset (lead ++ rest) = startCodes (offset + lead.length) rest := by
  induction lead generalizing offset with
  | nil => rfl
  | cons first lead ih =>
    have other := not_prefix_of_bare bare (List.cons_ne_nil first lead) closed
    rw [List.cons_append] at other ⊢
    rw [startCodes_of_other other, ih bare.tail, List.length_cons, Nat.add_assoc,
      Nat.add_comm 1]

/-- What begins with each of the units. -/
def remainders : List Bytes → List Bytes
  | [] => []
  | unit :: later => coded unit later :: remainders later

/-- Behind the start codes of a payload stand its units, each with those after it. -/
theorem startCodes_coded (bare : Bare lead) (units_bare : ∀ unit ∈ units, Bare unit)
    (offset : Nat) : (startCodes offset (coded lead units)).map Prod.snd = remainders units := by
  induction units generalizing lead offset with
  | nil =>
    rw [coded, List.flatMap_nil, startCodes_bare bare (.inl rfl)]
    rfl
  | cons unit later ih =>
    obtain ⟨here, there⟩ := List.forall_mem_cons.mp units_bare
    rw [coded, List.flatMap_cons, List.append_assoc,
      startCodes_bare bare (.inr (List.prefix_append _ _)), startCodes_startCode, List.map_cons]
    exact congrArg (_ :: ·) (ih here there _)

theorem map_remainders {α : Type} {f g : Bytes → α}
    (alike : ∀ unit ∈ units, ∀ later, f (coded unit later) = g unit) :
    (remainders units).map f = units.map g := by
  induction units with
  | nil => rfl
  | cons unit later ih =>
    obtain ⟨here, there⟩ := List.forall_mem_cons.mp alike
    rw [remainders, List.map_cons, List.map_cons, here, ih there]

theorem mem_remainders {remainder : Bytes} (member : remainder ∈ remainders units) :
    ∃ unit ∈ units, ∃ later, remainder = coded unit later := by
  induction units with
  | nil => cases member
  | cons unit later ih =>
    obtain rfl | member := List.mem_cons.mp member
    · exact ⟨unit, List.mem_cons_self, later, rfl⟩
    · obtain ⟨unit', inside, shape⟩ := ih member
      exact ⟨unit', List.mem_cons_of_mem _ inside, shape⟩

theorem exists_front_cons {first : UInt8} {offset : Nat} {code : Nat × Bytes} :
    (∃ front, first :: rest = front ++ startCode ++ code.2 ∧ code.1 = offset + front.length + 3) ↔
      (first :: rest = startCode ++ code.2 ∧ code.1 = offset + 3) ∨
        ∃ front, rest = front ++ startCode ++ code.2 ∧ code.1 = offset + 1 + front.length + 3 := by
  constructor
  · rintro ⟨front, whole, place⟩
    cases front with
    | nil => exact .inl ⟨whole, place⟩
    | cons byte front =>
      refine .inr ⟨front, (List.cons.inj whole).2, ?_⟩
      rw [place, List.length_cons]
      omega
  · rintro (⟨whole, place⟩ | ⟨front, rfl, place⟩)
    · exact ⟨[], whole, place⟩
    · refine ⟨first :: front, rfl, ?_⟩
      rw [place, List.length_cons]
      omega

/-- Where the start codes of any payload are. -/
theorem mem_startCodes {offset : Nat} {data : Bytes} {code : Nat × Bytes} :
    code ∈ startCodes offset data ↔
      ∃ front, data = front ++ startCode ++ code.2 ∧ code.1 = offset + front.length + 3 := by
  induction data generalizing offset with
  | nil => simp [startCodes, startCode]
  | cons first rest ih =>
    rw [exists_front_cons, ← ih]
    by_cases here : startCode <+: first :: rest
    · obtain ⟨behind, whole⟩ := here
      rw [startCodes_of_eq whole.symm, List.mem_cons, ← whole, List.append_cancel_left_eq,
        Prod.ext_iff, and_comm, eq_comm (a := behind)]
    · rw [startCodes_of_other here]
      refine (or_iff_right ?_).symm
      rintro ⟨whole, -⟩
      exact here ⟨_, whole.symm⟩

theorem pairwise_startCodes (offset : Nat) (data : Bytes) :
    (startCodes offset data).Pairwise fun code later => code.1 < later.1 := by
  induction data generalizing offset with
  | nil => exact .nil
  | cons first rest ih =>
    by_cases here : startCode <+: first :: rest
    · obtain ⟨behind, whole⟩ := here
      rw [startCodes_of_eq whole.symm, List.pairwise_cons]
      refine ⟨fun code member => ?_, ih _⟩
      obtain ⟨front, -, place⟩ := mem_startCodes.mp member
      omega
    · rw [startCodes_of_other here]
      exact ih _

end MotionImagery.Video
