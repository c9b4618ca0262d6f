/-! # Environment variables

Settings can come from variables. A variable that is not set, or whose text is
no value of the setting, leaves what was there before. -/

namespace TickFeed

/-- The text of every variable that is set, by name. -/
abbrev Environment := String → Option String

/-- The value that `read` finds in the variable `name`, else `value`. -/
def Environment.overlay {α : Type} (env : Environment) (name : String) (read : String → Option α)
    (value : α) : α :=
  ((env name).bind read).getD value

end TickFeed
