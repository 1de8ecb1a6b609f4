import VideoRemap.Fault
import VideoRemap.Json.Record

namespace VideoRemap

structure Options where
  batchSize : Nat
  maxFrames : Option Nat
  deriving DecidableEq

namespace Options

def standard : Options := ⟨24, none⟩

def validate (o : Options) : Except Fault Unit :=
  if o.batchSize = 0 then .error .zeroBatch
  else if o.maxFrames = some 0 then .error .zeroBudget
  else .ok ()

end Options

end VideoRemap
