import LinkLayer.Loopback.Report

/-! The command line of the loopback run. Nothing printed tells the time and a run is over long
before a datagram expires, so the clock may stand still. -/

def main (args : List String) : IO UInt32 := do
  let transcript := LinkLayer.Loopback.Transcript.ofArgs (fun _ => 0) args
  for line in transcript.lines do
    IO.println line
  return transcript.code.toUInt32
