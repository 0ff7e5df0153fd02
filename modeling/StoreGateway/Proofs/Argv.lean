import StoreGateway.Command.Arguments

/-!
# Words read back as arguments

The words handed to a tool are read from left to right: a switch stands alone, an option takes the
word behind it as its value, whatever that looks like.

* `find?_switch_flag`, `find?_opt_flag`, `find?_switch_opt`: a flag names one switch or one option,
  and never both;
* `ofArgv?_argv`: the words of an argument list read back as that list;
* `argv_inj`: so they determine it.
-/

namespace StoreGateway.Command.Arguments

theorem find?_switch_flag (s : Switch) : (Switch.all.find? fun t => t.flag = s.flag) = some s := by
  cases s <;> rfl

theorem find?_opt_flag (o : Opt) : (Opt.all.find? fun p => p.flag = o.flag) = some o := by
  cases o <;> rfl

theorem find?_switch_opt (o : Opt) : (Switch.all.find? fun t => t.flag = o.flag) = none := by
  cases o <;> rfl

theorem argv_cons (a : Argument) (as : Arguments) : argv (a :: as) = a.words ++ argv as := rfl

/-- The words of an argument list read back as that list. -/
theorem ofArgv?_argv (as : Arguments) : ofArgv? as.argv = some as := by
  induction as with
  | nil => rfl
  | cons a as ih =>
    rw [argv_cons]
    cases a with
    | switch s =>
      show ofArgv? (s.flag :: argv as) = _
      unfold ofArgv?
      rw [find?_switch_flag]
      simp [ih]
    | opt o value =>
      show ofArgv? (o.flag :: value :: argv as) = _
      unfold ofArgv?
      rw [find?_switch_opt, find?_opt_flag]
      simp [ih]

theorem argv_inj {as bs : Arguments} (h : as.argv = bs.argv) : as = bs := by
  have hread := ofArgv?_argv as
  rw [h, ofArgv?_argv] at hread
  exact (Option.some.inj hread).symm

end StoreGateway.Command.Arguments
