import Outliner.Text.Quoted
/-!
# Durations

A duration is written as an optional sign and then numbers, each with a unit (`ns`, `us`, `µs`,
`ms`, `s`, `m`, `h`), such as `1h30m` or `2.5s`; a lone `0` needs no unit.
-/

set_option autoImplicit false

namespace Outliner.Time

/-- Whether a text is a duration: an optional sign, then numbers each with a unit, or `0`. -/
def durationFault (s : String) : Option String :=
  let q := Text.quoted s
  let body := match s.toList with
    | '-' :: r | '+' :: r => r
    | r => r
  if body == ['0'] then none
  else if body.isEmpty then some ("time: invalid duration " ++ q)
  else
    let units := ["ns", "us", "µs", "μs", "ms", "s", "m", "h"]
    let rec go : Nat → List Char → Option String
      | 0, _ => none
      | _, [] => none
      | fuel + 1, cs =>
        let num := cs.takeWhile fun c => c.isDigit || c = '.'
        if num.isEmpty || !(num.any Char.isDigit) || num.count '.' > 1 then some ("time: invalid duration " ++ q)
        else
          let rest := cs.drop num.length
          let unit := rest.takeWhile fun c => !(c.isDigit || c = '.')
          if unit.isEmpty then some ("time: missing unit in duration " ++ q)
          else if !units.contains (String.ofList unit) then
            some ("time: unknown unit " ++ Text.quoted (String.ofList unit) ++ " in duration " ++ q)
          else go fuel (rest.drop unit.length)
    go (body.length + 1) body

end Outliner.Time
