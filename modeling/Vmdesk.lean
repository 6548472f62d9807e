import Vmdesk.InputAgreement
import Vmdesk.SdpRewrite
import Vmdesk.OneClient
import Vmdesk.RejectedOffer
import Vmdesk.SessionBitrate
import Vmdesk.SessionInput
import Vmdesk.SdpKeeps
import Vmdesk.NetRequests
import Vmdesk.NetClicks
import Vmdesk.NetGreeting
import Vmdesk.PointerDelivery
import Vmdesk.PipelineUpdates
import Vmdesk.ConvertPixels
import Vmdesk.FrameCoherence
import Vmdesk.BitrateEffect
import Vmdesk.FitAspect
import Vmdesk.SdpIdempotent
import Vmdesk.WriteFrames
import Vmdesk.Firewall
import Vmdesk.PublishedFrames
import Vmdesk.DecoderFallback
import Vmdesk.DecodeRefinement
import Vmdesk.PortRotation
import Vmdesk.Pacing
import Vmdesk.AnnexB
import Vmdesk.EventOrder
import Vmdesk.ConfigText
import Vmdesk.AccessUnit
import Vmdesk.Service
import Vmdesk.ServiceBitrate
import Vmdesk.ServiceFrames
import Vmdesk.Display
import Vmdesk.Png
import Vmdesk.RtcpForward
import Vmdesk.Screen
import Vmdesk.Scroll
import Vmdesk.WaitForDisplay
import Vmdesk.Answers
import Vmdesk.ControlDelivery
import Vmdesk.Pictures
import Vmdesk.Remote
import Vmdesk.Registration
import Vmdesk.Setup
import Vmdesk.SetupRuns
import Vmdesk.Doctor
