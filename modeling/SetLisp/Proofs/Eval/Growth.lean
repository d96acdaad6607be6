import SetLisp.Proofs.Eval.Outcome

namespace SetLisp

theorem Frame.names_prefix_define (frame : Frame) (name : String) (value : Value) :
    frame.names <+: (frame.define name value).names := by
  induction frame with
  | nil => exact List.nil_prefix
  | cons binding rest ih =>
      rw [define]
      split
      · exact List.prefix_rfl
      · exact List.cons_prefix_cons.mpr ⟨rfl, ih⟩

namespace Machine

/-- The second machine has the first one's frames behind the nearest, and has added to the rest. -/
structure GrowsTo (before after : Machine) : Prop where
  outer_eq : after.chain.outer = before.chain.outer
  names_prefix : before.chain.own.names <+: after.chain.own.names
  output_eq : ∃ printed, after.output = before.output ++ printed
  log_prefix : before.log <+: after.log

variable {machine before middle after : Machine}

namespace GrowsTo

theorem refl : machine.GrowsTo machine :=
  ⟨rfl, List.prefix_rfl, ⟨"", String.append_empty.symm⟩, List.prefix_rfl⟩

theorem trans (h : before.GrowsTo middle) (h' : middle.GrowsTo after) : before.GrowsTo after := by
  obtain ⟨printed, hprinted⟩ := h.output_eq
  obtain ⟨more, hmore⟩ := h'.output_eq
  refine ⟨h'.outer_eq.trans h.outer_eq, h.names_prefix.trans h'.names_prefix,
    ⟨printed ++ more, ?_⟩, h.log_prefix.trans h'.log_prefix⟩
  rw [hmore, hprinted, String.append_assoc]

theorem define (name : String) (value : Value) : machine.GrowsTo (machine.define name value) :=
  ⟨rfl, Frame.names_prefix_define machine.chain.own name value, ⟨"", String.append_empty.symm⟩,
    List.prefix_rfl⟩

theorem write (text : String) : machine.GrowsTo (machine.write text) :=
  ⟨rfl, List.prefix_rfl, ⟨text, rfl⟩, List.prefix_rfl⟩

theorem record (entry : LogRecord) : machine.GrowsTo (machine.record entry) := by
  unfold Machine.record
  split
  · exact ⟨rfl, List.prefix_rfl, ⟨"", String.append_empty.symm⟩,
      List.prefix_append machine.log [entry]⟩
  · exact refl

theorem skip (count : Nat) : machine.GrowsTo (machine.skip count) :=
  ⟨rfl, List.prefix_rfl, ⟨"", String.append_empty.symm⟩, List.prefix_rfl⟩

/-- Dropping the nearest frame of both machines leaves the same chain, or neither has another. -/
theorem leave (h : before.GrowsTo after) : before.leave.GrowsTo after.leave := by
  obtain ⟨⟨own, outer⟩, output, log, level, next⟩ := before
  obtain ⟨⟨own', outer'⟩, output', log', level', next'⟩ := after
  obtain ⟨houter, hnames, houtput, hlog⟩ := h
  obtain rfl : outer' = outer := houter
  cases outer' with
  | nil => exact ⟨rfl, hnames, houtput, hlog⟩
  | cons caller outer => exact ⟨rfl, List.prefix_rfl, houtput, hlog⟩

/-- A scope that was entered can be left as if nothing had been bound. -/
theorem chain_leave {scope : Frame} (h : (machine.enter scope).GrowsTo after) :
    after.leave.chain = machine.chain := by
  have houter : after.chain.outer = machine.chain.frames := h.outer_eq
  rw [Machine.leave, Chain.pop, houter]
  rfl

end GrowsTo

end Machine

end SetLisp
