import OmapHal.CryptoSst.RefCount
import OmapHal.CryptoSst.HandleSession
import OmapHal.Manifest.Uniqueness
import OmapHal.Delegation.Isolation
import OmapHal.PolicyManager.Bookkeeping
import OmapHal.PolicyManager.Coexistence
import OmapHal.Regionizer.Content
import OmapHal.Regionizer.Refinement
import OmapHal.ResourceManager.Accounting
import OmapHal.ResourceManager.Routing
import OmapHal.ResourceManagerProxy.Matching
import OmapHal.Dynload.Exact
import OmapHal.Camera.Recording
import OmapHal.Camera.Recycling
import OmapHal.Camera.Mapping
import OmapHal.Hwc.Cropping
import OmapHal.Regionizer.SourceRect
import OmapHal.Regionizer.Filled
import OmapHal.Camera.PreviewSession
import OmapHal.Camera.Returning
import OmapHal.Camera.VideoBuffers
import OmapHal.PropertyList.Session
import OmapHal.Manifest.Stalls
import OmapHal.Manifest.Values
import OmapHal.TeeClient.Intact
import OmapHal.Hwc.HdmiChoice
import OmapHal.CryptoSst.TemplateEncoding
import OmapHal.CryptoSst.SessionAtomicity
import OmapHal.Delegation.SectorArray
import OmapHal.Hwc.Handover
import OmapHal.Hwc.Composite
import OmapHal.ConfigParser.ConversionRun
import OmapHal.Dynload.CinitPackets
import OmapHal.Dynload.Expression
import OmapHal.ConfigParser.SpsRoundTrip
import OmapHal.Dynload.SectionExact
import OmapHal.Dynload.SymbolHistory
import OmapHal.PolicyManager.TableAccuracy
import OmapHal.Qos.Search
import OmapHal.Qos.Availability
import OmapHal.MessageQueue.Delivery
import OmapHal.ResourceManager.Grants
import OmapHal.Lcml.ControlSlots
import OmapHal.VideoDecoder.TimestampRuns
import OmapHal.OmxCore.GetHandle
import OmapHal.DynReg.DependentNodes
import OmapHal.VideoDecoder.NalPacking
import OmapHal.Camera.Nv12Resize
import OmapHal.VideoDecoder.Mpeg4Header
import OmapHal.VideoDecoder.AvcFraming
import OmapHal.VideoDecoder.ErrorMap
import OmapHal.Camera.ExifRational
import OmapHal.Camera.IonBuffers
import OmapHal.Camera.StartRecording
import OmapHal.Camera.AspectRatio
