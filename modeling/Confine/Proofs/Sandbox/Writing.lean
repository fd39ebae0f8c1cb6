import Confine.Proofs.Sandbox.Contract

/-! # Writing to standard error

What is written to standard error, by the logger or past it, is added at the end of what stands there
already, and nothing else of the process changes.
-/

namespace Confine.Sandbox

def writing (p : Sandbox) (lines : List String) : Sandbox :=
  if p.errorsOpen then { p with errors := p.errors ++ lines } else p

@[simp] theorem logger_writing (p : Sandbox) (lines : List String) :
    (p.writing lines).logger = p.logger := by
  unfold writing
  split <;> rfl

@[simp] theorem input_writing (p : Sandbox) (lines : List String) :
    (p.writing lines).input = p.input := by
  unfold writing
  split <;> rfl

@[simp] theorem writing_nil (p : Sandbox) : p.writing [] = p := by
  unfold writing
  split
  · rw [List.append_nil]
  · rfl

theorem writing_writing (p : Sandbox) (xs ys : List String) :
    (p.writing xs).writing ys = p.writing (xs ++ ys) := by
  by_cases isOpen : p.errorsOpen
  · simp only [writing, isOpen, if_true, List.append_assoc]
  · simp only [writing, isOpen, if_false, Bool.false_eq_true]

theorem writeErrors_eq (lines : List String) (p : Sandbox) :
    writeErrors lines p = (.ok (), p.writing lines) :=
  rfl

theorem log_eq (level : Log.Level) (text : String) (p : Sandbox) :
    log level text p = (.ok (), p.writing (p.logger.record level text)) :=
  rfl

theorem initLogger_eq (verbosity : Log.Verbosity) (p : Sandbox) :
    initLogger verbosity p = (.ok (), { p.writing (p.logger.init verbosity).1 with
      logger := (p.logger.init verbosity).2 }) :=
  rfl

end Confine.Sandbox
