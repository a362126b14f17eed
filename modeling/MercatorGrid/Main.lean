import MercatorGrid.CommandLine.Run

open MercatorGrid MercatorGrid.CommandLine

def main (args : List String) : IO UInt32 := do
  let threshold := Threshold.ofName (← IO.getEnv "RUST_LOG")
  match Options.ofArguments args with
  | .error .helpAsked => return 0
  | .error .versionAsked => return 0
  | .error _ => return 2
  | .ok options =>
    let result := run Elementary.native options
    for line in result.logged threshold do
      IO.eprintln line.text
    IO.print result.output
    return UInt32.ofNat result.code
