import SampleProfiler.Main
import SampleProfiler.Proofs.Contents
import SampleProfiler.Proofs.Transparency
import SampleProfiler.Recency
import SampleProfiler.Session
import SampleProfiler.Shared
import SampleProfiler.Stored
import SampleProfiler.Proofs.Inclusion
import SampleProfiler.Proofs.Interleaving
import SampleProfiler.Proofs.Stamps
import SampleProfiler.Proofs.Cells
import SampleProfiler.Proofs.Gathering
import SampleProfiler.Proofs.Progress
import SampleProfiler.Proofs.Serial
import SampleProfiler.Proofs.Production
import SampleProfiler.Proofs.Scheduling
import SampleProfiler.Proofs.Shift
import SampleProfiler.Proofs.Tenure
import SampleProfiler.Proofs.Accounting
import SampleProfiler.Proofs.Flight
import SampleProfiler.Proofs.Mean
import SampleProfiler.Proofs.Reordering
import SampleProfiler.Proofs.Durations
import SampleProfiler.Proofs.Overtaking
import SampleProfiler.Proofs.Extremes
import SampleProfiler.Proofs.Forcing
import SampleProfiler.Proofs.Ranking
import SampleProfiler.Proofs.Site
import SampleProfiler.Proofs.Stopwatch
import SampleProfiler.Proofs.Headroom
import SampleProfiler.Proofs.Documents
import SampleProfiler.Proofs.Persistence
import SampleProfiler.Proofs.Layers
import SampleProfiler.Proofs.Numerals
import SampleProfiler.Proofs.Rows
import SampleProfiler.Proofs.Journal
