import OpenTogetherTube.Common.Grants

/-!
# What a text is granted

`granted` takes a permission's name, or the start of one. The text becomes the mask of the
permissions it names, and the role must have all bits of that mask. So a text is granted if every
permission it names is (`granted_iff`): also if it names none, because then nothing is asked for.
-/

namespace OpenTogetherTube.Common

/-- The permission is set in a role's mask. -/
def Permission.setIn (p : Permission) (mask : GrantMask) : Prop := p.mask &&& mask = p.mask

theorem getLsbD_foldl_named (perm : PermissionName) (ps : List Permission) (m : GrantMask) (b : Nat) :
    (ps.foldl (fun mask p => if p.namedBy perm then mask ||| p.mask else mask) m).getLsbD b = true ↔
      m.getLsbD b = true ∨ ∃ p ∈ ps, p.namedBy perm = true ∧ p.mask.getLsbD b = true := by
  induction ps generalizing m with
  | nil => simp
  | cons p ps ih =>
    rw [List.foldl_cons, ih]
    by_cases hnamed : p.namedBy perm = true
    · rw [if_pos hnamed, BitVec.getLsbD_or, Bool.or_eq_true]
      grind
    · rw [if_neg hnamed]
      grind

/-- The bits of the permissions that are named. -/
theorem getLsbD_parseIntoGrantMask (perm : PermissionName) (b : Nat) :
    (parseIntoGrantMask [perm]).getLsbD b = true ↔
      ∃ p ∈ permissions, p.namedBy perm = true ∧ p.mask.getLsbD b = true := by
  rw [parseIntoGrantMask, List.foldl_cons, List.foldl_nil, getLsbD_foldl_named]
  simp only [BitVec.ofNat_eq_ofNat, BitVec.getLsbD_zero, Bool.false_eq_true, false_or]

/-- One mask is part of another, bit by bit. -/
theorem and_eq_left_iff {m full : GrantMask} :
    m &&& full = m ↔ ∀ b, m.getLsbD b = true → full.getLsbD b = true := by
  constructor
  · intro h b hb
    exact Grants.getLsbD_of_and_eq h hb
  · intro h
    apply BitVec.eq_of_getLsbD_eq
    intro b _
    rw [BitVec.getLsbD_and]
    grind

namespace Grants

/-- **A text is granted if every permission it names is.** -/
theorem granted_iff (g : Grants) (role : Role) (perm : PermissionName) :
    g.granted role perm = true ↔
      ∀ p ∈ permissions, p.namedBy perm = true → p.setIn ((g.getMask role).getD 0) := by
  unfold granted Permission.setIn
  rw [decide_eq_true_iff, BitVec.and_comm, and_eq_left_iff]
  constructor
  · intro h p hp hnamed
    rw [and_eq_left_iff]
    intro b hb
    exact h b ((getLsbD_parseIntoGrantMask perm b).mpr ⟨p, hp, hnamed, hb⟩)
  · intro h b hb
    obtain ⟨p, hp, hnamed, hb⟩ := (getLsbD_parseIntoGrantMask perm b).mp hb
    exact and_eq_left_iff.mp (h p hp hnamed) b hb

/-- The text is `"*"`, or a permission's name starts with it. -/
def Names (perm : PermissionName) : Prop := ∃ p ∈ permissions, p.namedBy perm = true

instance (perm : PermissionName) : Decidable (Names perm) :=
  inferInstanceAs (Decidable (∃ p ∈ permissions, p.namedBy perm = true))

/-- A text is granted exactly if it names permissions and the role has them all. -/
def GrantsExactly (g : Grants) (role : Role) (perm : PermissionName) : Prop :=
  g.granted role perm = true ↔
    Names perm ∧ ∀ p ∈ permissions, p.namedBy perm = true → p.setIn ((g.getMask role).getD 0)

/-- **A text that names nothing is granted to everyone**, and only there does `granted` go wrong. -/
theorem grantsExactly_iff (g : Grants) (role : Role) (perm : PermissionName) :
    g.GrantsExactly role perm ↔ Names perm := by
  unfold GrantsExactly
  rw [granted_iff]
  constructor
  · intro h
    by_contra hnames
    have hnone : ∀ p ∈ permissions, p.namedBy perm = true → p.setIn ((g.getMask role).getD 0) :=
      fun p hp hnamed => absurd ⟨p, hp, hnamed⟩ hnames
    exact hnames (h.mp hnone).1
  · intro hnames
    constructor
    · intro hall
      exact ⟨hnames, hall⟩
    · intro h
      exact h.2

/-- Not even grants without a single mask refuse it. -/
theorem not_grantsExactly : ¬ ∀ (g : Grants) (role : Role) (perm : PermissionName),
    g.GrantsExactly role perm := by
  intro h
  have hgranted : cleared.granted .unregisteredUser "playback.paly-pause" = true := by
    decide +kernel
  have hnot : ¬ Names "playback.paly-pause" := by decide +kernel
  exact hnot ((h cleared .unregisteredUser "playback.paly-pause").mp hgranted).1

/-- The empty text is the start of every name. -/
example : Names "" ∧ Names "manage" ∧ ¬ Names "chat." := by decide +kernel

end Grants

end OpenTogetherTube.Common
