import CurlWs.Memory.BlockSize
import CurlWs.Memory.QueueRuns
import CurlWs.Receive.CloseAnswer
import CurlWs.Receive.HeaderReading
import CurlWs.Receive.Heard
import CurlWs.Receive.MaybeValid
import CurlWs.Receive.PingPong
import CurlWs.Receive.ScratchBuffers
import CurlWs.Send.Codec
import CurlWs.Send.Completion
import CurlWs.Send.EncodeSafety
import CurlWs.Send.Failure
import CurlWs.Send.Shortcut
import CurlWs.Send.UrgentClose
import CurlWs.Send.Wakeup
import CurlWs.Send.Wire
import CurlWs.Setup.Accepting
